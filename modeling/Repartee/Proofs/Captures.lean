/-
  Repartee.Proofs.Captures — what a pattern says about its captures.

  Wildcards and choices are captured, words and optional groups are not. A search for an alignment
  gathers captures on many branches, drops some of them and comes back to others, and a lone `*`
  answers an empty message without any search. However a trigger came to answer, it has one capture
  for each of its wildcards and choices, so whether a tag finds its capture is told by the trigger
  alone.

  Proved:
  - On the stack of a search each partial alignment aligns what it has used (`grounded_step`), so an
    alignment that is found is one (`align_sound`).
  - Captures are runs of words in the order of their items, without overlap (`captures_of_align`).
  - A tag for a capture leaves a diagnostic exactly if its index is none of them
    (`diagnostics_capture`).
  - All of this for what any search of a rulebook finds, at any depth of a turn, and for whole turns
    (`captures_of_found`).
-/

import Repartee.Proofs.Searches

namespace Repartee

/-! ## Captures along a search -/

namespace Pattern

section Search

variable {p : Pattern} {items : List Item} {item : Item} {message ws captured captures : List String} {s s' : Search}

theorem Aligns.concat (h : Aligns items message captures) (hitem : Takes ws captured item) :
    Aligns (items ++ [item]) (message ++ ws) (captures ++ captured) := by
  induction h with
  | nil =>
    have hlast := Aligns.cons hitem .nil
    rwa [List.append_nil, List.append_nil] at hlast
  | cons htakes _ ih =>
    rw [List.append_assoc, List.append_assoc]
    exact .cons htakes ih

theorem takes_of_mem_moves {reserve : Nat} {m : Move} (h : m ∈ moves reserve message item) :
    Takes (message.take m.words) m.captures item := by
  cases item with
  | word w =>
    by_cases hhead : message.head? = some w
    · rw [moves, if_pos hhead, List.mem_singleton] at h
      obtain ⟨rest, rfl⟩ := List.head?_eq_some_iff.mp hhead
      rw [h]
      exact ⟨rfl, rfl⟩
    · rw [moves, if_neg hhead] at h
      cases h
  | wildcard k =>
    obtain ⟨n, hn, rfl⟩ := List.mem_map.mp h
    obtain ⟨hpos, hle⟩ := mem_downFrom.mp hn
    have hlength := span_le k reserve message
    have hspan := span_eq_min k reserve message
    have hn : n ≤ message.length := by omega
    have hall : (message.take n).all k.accepts = true := (all_take_iff hn).mpr (by omega)
    exact ⟨(take_ne_nil_iff hn).mpr hpos, List.all_eq_true.mp hall, rfl⟩
  | choice alternatives =>
    obtain ⟨alternative, halternative, rfl⟩ := List.mem_map.mp h
    obtain ⟨hmem, hprefix⟩ := List.mem_filter.mp halternative
    have htake := List.prefix_iff_eq_take.mp (List.isPrefixOf_iff_prefix.mp hprefix)
    rw [← htake]
    exact ⟨hmem, rfl⟩
  | optional alternatives =>
    rcases List.mem_append.mp h with h | h
    · obtain ⟨o, ho, hm⟩ := List.mem_flatMap.mp h
      cases o with
      | words alternative =>
        by_cases hprefix : alternative.isPrefixOf message = true
        · rw [optionMoves, if_pos hprefix, List.mem_singleton] at hm
          have htake := List.prefix_iff_eq_take.mp (List.isPrefixOf_iff_prefix.mp hprefix)
          rw [hm, ← htake]
          exact ⟨.inl ho, rfl⟩
        · rw [optionMoves, if_neg hprefix] at hm
          cases hm
      | anyWords =>
        obtain ⟨n, hn, rfl⟩ := List.mem_map.mp hm
        obtain ⟨hpos, hle⟩ := mem_downFrom.mp hn
        have hn : n ≤ message.length := by omega
        exact ⟨.inr (.inl ⟨ho, (take_ne_nil_iff hn).mpr hpos⟩), rfl⟩
    · rw [List.mem_singleton.mp h]
      exact ⟨.inr (.inr rfl), rfl⟩

/-- Each partial alignment on the stack aligns the items it has used with the words it has used. -/
def Grounded (p : Pattern) (message : List String) (s : Search) : Prop :=
  ∀ a ∈ s.stack, Aligns (p.items.take a.item) (message.take a.position) a.captures

theorem grounded_start (p : Pattern) (message : List String) : p.Grounded message start := by
  intro a ha
  rw [List.mem_singleton.mp ha]
  exact .nil

theorem grounded_step (hs : p.Grounded message s) (h : p.step message s = .working s') : p.Grounded message s' := by
  obtain ⟨a, stack, hstack, ⟨rfl, -⟩ | ⟨next, hnext, -, rfl⟩⟩ := step_working h
  · intro b hb
    exact hs b (by rw [hstack]; exact List.mem_cons_of_mem a hb)
  · intro b hb
    rcases List.mem_append.mp hb with hb | hb
    · obtain ⟨m, hm, rfl⟩ := List.mem_map.mp hb
      have ha := hs a (by rw [hstack]; exact List.mem_cons_self)
      have hmore := ha.concat (takes_of_mem_moves hm)
      show Aligns (p.items.take (a.item + 1)) (message.take (a.position + m.words)) (a.captures ++ m.captures)
      rwa [List.take_add_one, hnext, List.take_add]
    · exact hs b (by rw [hstack]; exact List.mem_cons_of_mem a hb)

theorem aligns_of_done (hs : p.Grounded message s) (h : p.step message s = .done (some captures)) :
    Aligns p.items message captures := by
  cases hstack : s.stack with
  | nil => simp [step, hstack] at h
  | cons a stack =>
    have ha := hs a (by rw [hstack]; exact List.mem_cons_self)
    cases hnext : p.items[a.item]? with
    | none =>
      by_cases hend : a.position = message.length
      · simp only [step, hstack, hnext, if_pos hend, Progress.done.injEq, Option.some.injEq] at h
        rwa [h, hend, List.take_length, List.take_of_length_le (List.getElem?_eq_none_iff.mp hnext)] at ha
      · simp [step, hstack, hnext, hend] at h
    | some next =>
      simp only [step, hstack, hnext] at h
      split at h
      · cases h
      · cases h

theorem aligns_of_run {hin : p.Inside message s} (hs : p.Grounded message s) (h : p.run message s hin = some captures) :
    Aligns p.items message captures := by
  fun_induction run p message s hin with
  | case1 s hin found hdone =>
    subst h
    exact aligns_of_done hs hdone
  | case2 s hin s' hstep ih => exact ih (grounded_step hs hstep) h

/-- What is found is an alignment of all items with all words. -/
theorem align_sound (h : p.align message = some captures) : Aligns p.items message captures :=
  aligns_of_run (p.grounded_start message) h

end Search

end Pattern

/-! ## Runs of words -/

/-- Wildcards and choices are captured. -/
def Item.isCaptured : Item → Bool
  | .wildcard _ | .choice _ => true
  | .word _ | .optional _ => false

/-- A run of words that an item can capture. -/
def Item.CanCapture : Item → List String → Prop
  | .wildcard .any, run => run ≠ []
  | .wildcard .digits, run => run ≠ [] ∧ ∀ w ∈ run, w ≠ "" ∧ ∀ c ∈ w.toList, '0' ≤ c ∧ c ≤ '9'
  | .wildcard .letters, run => run ≠ [] ∧ ∀ w ∈ run, w ≠ "" ∧ ∀ c ∈ w.toList, Unicode.isAlphabetic c = true
  | .choice alternatives, run => run ∈ alternatives
  | .word _, _ | .optional _, _ => False

/-- The runs stand in the words in this order, and no two overlap. -/
inductive Occur : List (List String) → List String → Prop
  | nil (words : List String) : Occur [] words
  | cons (before run : List String) {runs : List (List String)} {words : List String} :
      Occur runs words → Occur (run :: runs) (before ++ run ++ words)

theorem Occur.after {runs : List (List String)} {words : List String} (h : Occur runs words) (more : List String) :
    Occur runs (more ++ words) := by
  cases h with
  | nil => exact .nil _
  | cons before run h =>
    rw [← List.append_assoc, ← List.append_assoc]
    exact .cons (more ++ before) run h

namespace Pattern

def captureCount (p : Pattern) : Nat := p.items.countP Item.isCaptured

/-- The captures are runs of the words, one for each wildcard and choice, in their order. -/
def Captures (p : Pattern) (words captures : List String) : Prop :=
  ∃ runs, List.Forall₂ Item.CanCapture (p.items.filter Item.isCaptured) runs ∧ captures = runs.map Text.spaced ∧
    Occur runs words

theorem Captures.length_eq {p : Pattern} {words captures : List String} (h : p.Captures words captures) :
    captures.length = p.captureCount := by
  obtain ⟨runs, hruns, rfl, -⟩ := h
  rw [List.length_map, ← hruns.length_eq, captureCount, List.countP_eq_length_filter]

theorem canCapture_wildcard {k : Wildcard} {ws : List String} (hne : ws ≠ []) (hall : ∀ w ∈ ws, k.accepts w = true) :
    (Item.wildcard k).CanCapture ws := by
  have hword : ∀ {w : String} {p : Char → Bool}, (!w.isEmpty && w.toList.all p) = true →
      w ≠ "" ∧ ∀ c ∈ w.toList, p c = true := by
    intro w p haccepts
    rw [Bool.and_eq_true, Bool.not_eq_true', List.all_eq_true] at haccepts
    refine ⟨fun hempty => ?_, haccepts.2⟩
    rw [hempty] at haccepts
    cases haccepts.1
  cases k with
  | any => exact hne
  | digits =>
    refine ⟨hne, fun w hw => ?_⟩
    obtain ⟨hnonempty, hdigits⟩ := hword (hall w hw)
    refine ⟨hnonempty, fun c hc => ?_⟩
    have hdigit : 48 ≤ c.val ∧ c.val ≤ 57 := by simpa [Char.isDigit] using hdigits c hc
    exact hdigit
  | letters => exact ⟨hne, fun w hw => hword (hall w hw)⟩

theorem exists_runs {items : List Item} {words captures : List String} (h : Aligns items words captures) :
    ∃ runs, List.Forall₂ Item.CanCapture (items.filter Item.isCaptured) runs ∧ captures = runs.map Text.spaced ∧
      Occur runs words := by
  induction h with
  | nil => exact ⟨[], .nil, rfl, .nil []⟩
  | @cons item items ws message captured captures htakes _ ih =>
    obtain ⟨runs, hruns, hcaptures, hoccur⟩ := ih
    cases item with
    | word w =>
      refine ⟨runs, hruns, ?_, hoccur.after ws⟩
      rw [htakes.2, hcaptures, List.nil_append]
    | optional alternatives =>
      refine ⟨runs, hruns, ?_, hoccur.after ws⟩
      rw [htakes.2, hcaptures, List.nil_append]
    | wildcard k =>
      refine ⟨ws :: runs, .cons (canCapture_wildcard htakes.1 htakes.2.1) hruns, ?_, .cons [] ws hoccur⟩
      rw [htakes.2.2, hcaptures]
      rfl
    | choice alternatives =>
      refine ⟨ws :: runs, .cons htakes.1 hruns, ?_, .cons [] ws hoccur⟩
      rw [htakes.2, hcaptures]
      rfl

theorem captures_of_align {p : Pattern} {words captures : List String} (h : p.align words = some captures) :
    p.Captures words captures := exists_runs (align_sound h)

end Pattern

/-! ## What is found -/

/-- The captures of a finding are those of the trigger's patterns. A lone `*` captures nothing of a message
without words, and that is one capture too. -/
structure Finding.Captured (f : Finding) (t : Trigger) (words lastReply : List String) : Prop where
  starCount : f.stars.length = t.pattern.captureCount
  stars : t.pattern.Captures words f.stars ∨ words = [] ∧ t.pattern.items = [.wildcard .any] ∧ f.stars = [""]
  constrained : f.usedPrevious = true → ∃ previous, t.previous = some previous ∧
    f.botStars.length = previous.captureCount ∧ previous.Captures lastReply f.botStars
  unconstrained : f.usedPrevious = false → t.previous = none ∧ f.botStars = []

/-- How many captures the `%` line of a trigger has. -/
def Trigger.botCaptureCount (t : Trigger) : Nat := (t.previous.map (·.captureCount)).getD 0

theorem Finding.Captured.botStarCount {f : Finding} {t : Trigger} {words lastReply : List String}
    (h : f.Captured t words lastReply) : f.botStars.length = t.botCaptureCount := by
  rw [Trigger.botCaptureCount]
  cases hused : f.usedPrevious with
  | true =>
    obtain ⟨previous, hprevious, hcount, -⟩ := h.constrained hused
    rw [hcount, hprevious]
    rfl
  | false =>
    obtain ⟨hprevious, hnone⟩ := h.unconstrained hused
    rw [hnone, hprevious]
    rfl

theorem captured_of_answers {words lastReply : List String} {t : Trigger} {f : Finding}
    (h : Answers words lastReply t f) : f.Captured t words lastReply := by
  have hstars := Pattern.captures_of_align h.stars
  have hbot := h.botStars
  refine ⟨hstars.length_eq, .inl hstars, fun hused => ?_, fun hused => ?_⟩
  · rw [h.usedPrevious] at hused
    obtain ⟨previous, hprevious⟩ := Option.isSome_iff_exists.mp hused
    rw [hprevious] at hbot
    have hbotStars := Pattern.captures_of_align hbot
    exact ⟨previous, hprevious, hbotStars.length_eq, hbotStars⟩
  · rw [h.usedPrevious] at hused
    have hprevious := Option.isNone_iff_eq_none.mp (Option.isSome_eq_false_iff.mp hused)
    rw [hprevious] at hbot
    exact ⟨hprevious, (Option.some.inj hbot).symm⟩

theorem captured_of_fallsBack {lastReply : List String} {t : Trigger} {f : Finding} (hlone : LoneStar t)
    (h : FallsBack [] f) : f.Captured t [] lastReply := by
  refine ⟨?_, .inr ⟨rfl, hlone.2, h.stars⟩, fun hused => ?_, fun _ => ⟨hlone.1, h.botStars⟩⟩
  · rw [h.stars, Pattern.captureCount, hlone.2]
    rfl
  · rw [h.usedPrevious] at hused
    cases hused

theorem Rulebook.Ready.captured {r : Rulebook} (h : r.Ready) {topic : String} {ranking : Ranking}
    (hranking : r.ranking? topic = some ranking) {words lastReply : List String} {f : Finding}
    (hfound : r.catalog.search ranking words lastReply = some f) :
    ∃ t, r.catalog.triggers[f.candidate.trigger]? = some t ∧ f.Captured t words lastReply := by
  obtain ⟨pool, rfl⟩ := h.exists_pool hranking
  obtain ⟨t, ht, hanswers | ⟨rfl, hlone, hfalls⟩⟩ := Catalog.answers_or_fallsBack hfound
  · exact ⟨t, ht, captured_of_answers hanswers⟩
  · exact ⟨t, ht, captured_of_fallsBack hlone hfalls⟩

/-! ## Tags for captures -/

/-- It says that a capture was asked for that there is none of. -/
def Diagnostic.IsStarOutOfRange : Diagnostic → Prop
  | .starOutOfRange _ _ => True
  | _ => False

/-- What a tag for a capture leaves where there are so many. -/
def starDiagnostics (index count : Nat) : List Diagnostic :=
  if index = 0 ∨ count < index then [.starOutOfRange index count] else []

/-- A piece names a capture that the patterns of the trigger have. -/
def Piece.NamesCapture (t : Trigger) : Piece → Prop
  | .star index => index ≠ 0 ∧ index ≤ t.pattern.captureCount
  | .botStar index => index ≠ 0 ∧ index ≤ t.botCaptureCount
  | _ => True

namespace Turn

theorem diagnostics_capture (captures : List String) (index : Nat) (t : Turn) :
    ((capture captures index).run t).2.diagnostics = t.diagnostics ++ starDiagnostics index captures.length := by
  cases index with
  | zero => rfl
  | succ index =>
    rw [capture, starDiagnostics]
    cases hcapture : captures[index]? with
    | none =>
      have hlength := List.getElem?_eq_none_iff.mp hcapture
      rw [if_pos (.inr (by omega))]
      rfl
    | some text =>
      obtain ⟨hlt, -⟩ := List.getElem?_eq_some_iff.mp hcapture
      rw [if_neg (by omega), List.append_nil]
      rfl

section Found

variable {s : Scene}

/-- A turn has asked for no capture in vain. -/
def InRange (t : Turn) : Prop := ∀ d ∈ t.diagnostics, ¬ d.IsStarOutOfRange

theorem steady_inRange : Steady s (fun d => ¬ d.IsStarOutOfRange) InRange where
  draw h := h
  diagnose hd h := by
    intro d hmem
    rcases List.mem_append.mp hmem with hold | hnew
    · exact h d hold
    · rw [List.mem_singleton.mp hnew]
      exact hd
  set _ _ h := h
  setTopic _ h := h
  call _ _ h := h

/-- What is found has the captures of its trigger, wherever a turn searches. -/
theorem ensures_find_captured {I : Turn → Prop} {D : Diagnostic → Prop} {E : Turn → Prop} (hready : s.rules.Ready)
    (h : Steady s D I) (hD : ∀ topic, D (.unknownTopic topic)) (hnoting : ∀ t step, I t → I (t.noting step))
    (depth : Nat) (text : String) :
    Ensures I (fun found t => I t ∧ ∀ f ∈ found, ∃ trigger words lastReply,
      s.rules.catalog.triggers[f.candidate.trigger]? = some trigger ∧ f.Captured trigger words lastReply) E
      (liftM (find s depth text) : Play (Option Finding)) := by
  refine ensures_find hready h hD fun t ranking ht hranking => ⟨hnoting t _ ht, fun f hf => ?_⟩
  obtain ⟨trigger, htrigger, hcaptured⟩ := hready.captured hranking hf
  exact ⟨trigger, _, _, htrigger, hcaptured⟩

theorem not_isStarOutOfRange_of_mayLeave {f : Finding} {trigger : Trigger} {words lastReply : List String}
    (hcaptured : f.Captured trigger words lastReply) {p : Piece} (hp : p.NamesCapture trigger) {d : Diagnostic}
    (h : p.MayLeave ⟨f.stars, f.botStars⟩ d) : ¬ d.IsStarOutOfRange := by
  have hstars := hcaptured.starCount
  have hbotStars := hcaptured.botStarCount
  intro hd
  cases d with
  | starOutOfRange index available =>
    cases p with
    | star i =>
      obtain ⟨hout, -⟩ := h
      obtain ⟨hpos, hle⟩ := hp
      dsimp only at hout
      omega
    | botStar i =>
      obtain ⟨hout, -⟩ := h
      obtain ⟨hpos, hle⟩ := hp
      dsimp only at hout
      omega
    | _ => simp [Piece.MayLeave] at h
  | _ => exact hd

theorem keeps_answer_inRange (hall : ∀ trigger ∈ s.rules.catalog.triggers, trigger.Each (·.NamesCapture trigger))
    {redirect : String → Play String} (hredirect : ∀ target, Keeps InRange InRange (redirect target))
    {found : Option Finding} (hfound : ∀ f ∈ found, ∃ trigger words lastReply,
      s.rules.catalog.triggers[f.candidate.trigger]? = some trigger ∧ f.Captured trigger words lastReply) :
    Keeps InRange InRange (answer s redirect found) := by
  cases found with
  | none => exact keeps_pure _
  | some f =>
    obtain ⟨trigger, words, lastReply, htrigger, hcaptured⟩ := hfound f rfl
    have heach := hall trigger (Array.mem_of_getElem? htrigger)
    rw [answer, htrigger]
    exact keeps_say steady_inRange hredirect (heach.imp fun p hp d => not_isStarOutOfRange_of_mayLeave hcaptured hp)

theorem keeps_follow_inRange (hready : s.rules.Ready)
    (hall : ∀ trigger ∈ s.rules.catalog.triggers, trigger.Each (·.NamesCapture trigger)) (left : Nat) (target : String) :
    Keeps InRange InRange (follow s left target) := by
  induction left generalizing target with
  | zero => exact ensures_follow_zero (fun t ht => (steady_inRange (s := s)).diagnose (fun h => h) ht) target
  | succ left ih =>
    rw [follow]
    refine (keeps_lift fun t ht => ht).bind fun _ => ?_
    refine (ensures_find_captured hready steady_inRange (fun _ h => h) (fun _ _ ht => ht) _ _).bind ?_
    exact fun found => ensures_of_fact fun hfound => keeps_answer_inRange hall ih hfound

/-- If no body names a capture that its trigger does not have, no turn asks for one. -/
theorem inRange_play (hready : s.rules.Ready)
    (hall : ∀ trigger ∈ s.rules.catalog.triggers, trigger.Each (·.NamesCapture trigger)) (u : User) (message : String) :
    ∀ d ∈ (play s u message).1.diagnostics, ¬ d.IsStarOutOfRange := by
  have hstart : InRange { user := u } := by simp [InRange]
  have hfind := ensures_find_captured (E := fun _ => False) hready (steady_inRange (s := s))
    (fun _ h => h) (fun _ _ ht => ht) 0 message
  have hfound := hfind.of_lift hstart
  rw [play]
  generalize (find s 0 message).run { user := u } = result at hfound ⊢
  obtain ⟨found, t⟩ := result
  obtain ⟨ht, hcaptured⟩ := hfound
  have hanswer : Keeps InRange InRange (answer s (follow s s.settings.maxDepth) found) :=
    keeps_answer_inRange hall (keeps_follow_inRange hready hall _) hcaptured
  dsimp only
  rcases hanswered : (answer s (follow s s.settings.maxDepth) found).run t with ⟨_ | reply, t'⟩
  · exact hanswer.aborted ht hanswered
  · exact hanswer.ended ht hanswered

/-- A finding is answered by its trigger, which plays a tag for a capture without a diagnostic exactly if the
index is that of one of its captures. -/
structure PlaysCaptures (s : Scene) (f : Finding) (trigger : Trigger) : Prop where
  answer : ∀ redirect, answer s redirect (some f) = say s redirect ⟨f.stars, f.botStars⟩ trigger
  star : ∀ redirect index (t : Turn), ((renderPiece s redirect ⟨f.stars, f.botStars⟩ (.star index)).run t).2.diagnostics =
    t.diagnostics ++ starDiagnostics index trigger.pattern.captureCount
  botStar : ∀ redirect index (t : Turn),
    ((renderPiece s redirect ⟨f.stars, f.botStars⟩ (.botStar index)).run t).2.diagnostics =
      t.diagnostics ++ starDiagnostics index trigger.botCaptureCount

theorem playsCaptures_of_find (hready : s.rules.Ready) {depth : Nat} {text : String} {t t' : Turn} {f : Finding}
    (h : (find s depth text).run t = (some f, t')) :
    ∃ trigger, s.rules.catalog.triggers[f.candidate.trigger]? = some trigger ∧ PlaysCaptures s f trigger := by
  have hsteady : Steady s (fun _ => True) fun _ => True :=
    ⟨fun _ => trivial, fun _ _ => trivial, fun _ _ _ => trivial, fun _ _ => trivial, fun _ _ _ => trivial⟩
  have hfind := ensures_find_captured (E := fun _ => False) hready hsteady (fun _ => trivial) (fun _ _ _ => trivial) depth text
  have hfound := (hfind.of_lift (t := t) trivial).2
  rw [h] at hfound
  obtain ⟨trigger, words, lastReply, htrigger, hcaptured⟩ := hfound f rfl
  refine ⟨trigger, htrigger, fun redirect => ?_, fun redirect index t => ?_, fun redirect index t => ?_⟩
  · rw [answer, htrigger]
  · rw [← hcaptured.starCount]
    exact diagnostics_capture f.stars index t
  · rw [← hcaptured.botStarCount]
    exact diagnostics_capture f.botStars index t

end Found

end Turn

/-- How many captures there are, and which tags find theirs, can be told from the triggers. -/
structure Rulebook.CapturesStatic (r : Rulebook) : Prop where
  /-- In every search of every topic. -/
  found : ∀ topic ranking words lastReply f, r.ranking? topic = some ranking →
    r.catalog.search ranking words lastReply = some f →
    ∃ t, r.catalog.triggers[f.candidate.trigger]? = some t ∧ f.Captured t words lastReply
  /-- Wherever a turn searches, at whatever depth. -/
  played : ∀ s : Scene, s.rules = r → ∀ depth text t t' f, (Turn.find s depth text).run t = (some f, t') →
    ∃ trigger, r.catalog.triggers[f.candidate.trigger]? = some trigger ∧ Turn.PlaysCaptures s f trigger
  /-- In every turn. -/
  inRange : ∀ s : Scene, s.rules = r → (∀ trigger ∈ r.catalog.triggers, trigger.Each (·.NamesCapture trigger)) →
    ∀ u message, ∀ d ∈ (Turn.play s u message).1.diagnostics, ¬ d.IsStarOutOfRange

namespace Rulebook

theorem captures_of_found {punctuation : Regex} {settings : Settings} {scripts : List Script} {r : Rulebook}
    (h : build punctuation settings scripts = .ok r) : r.CapturesStatic := by
  have hready := ready_of_build h
  refine ⟨fun topic ranking words lastReply f hranking hfound => hready.captured hranking hfound, ?_, ?_⟩
  · intro s hs depth text t t' f hfind
    subst hs
    exact Turn.playsCaptures_of_find hready hfind
  · intro s hs hall u message
    subst hs
    exact Turn.inRange_play hready hall u message

/-- Three captures, the optional group being none, and a fourth that is asked for in vain. -/
theorem captures_of_found_age :
    let text := "+ * (am|was) # years [old]\n- <star3><star4>"
    ∃ b₀, Bot.new {} = .ok b₀ ∧
      let b := b₀.after [.load {} (.text "a" text)]
      let r := (b.reply "u" "I am 25 years old").1
      (r.reply = "25" ∧ r.matched.map (·.stars) = some ["i", "am", "25"] ∧ r.diagnostics = [.starOutOfRange 4 3]) ∧
      build b.punctuation {} (b.sources.map (·.script)) = .ok b.rules ∧ b.rules.CapturesStatic := by
  intro text
  obtain ⟨b₀, hnew, hran⟩ : ∃ b₀, Bot.new {} = .ok b₀ ∧
      let b := b₀.after [.load {} (.text "a" text)]
      let r := (b.reply "u" "I am 25 years old").1
      (r.reply = "25" ∧ r.matched.map (·.stars) = some ["i", "am", "25"] ∧ r.diagnostics = [.starOutOfRange 4 3]) ∧
        b.sources.length = 1 :=
    exists_ok_of_any (by decide +kernel)
  have hconsistent := Bot.consistent_after (Bot.consistent_new hnew) [.load {} (.text "a" text)]
  rcases hconsistent.rules with hbuild | ⟨hsources, -⟩
  · exact ⟨b₀, hnew, hran.1, hbuild, captures_of_found hbuild⟩
  · have hlength := hran.2
    rw [hsources] at hlength
    cases hlength

end Rulebook

end Repartee
