/-
  Repartee.Proofs.Journal — what a report says of its turn.

  A turn notes every search where it searches, the text of a redirect before it is searched for,
  and what it has tried as it goes; a redirect too deep ends it wherever it stands. The report has
  these lists as they are at the end. That they fit together holds at every moment of a turn, at
  every depth: each text searched for has its step, the steps go down one redirect at a time, and
  nothing is too deep yet.

  Proved:
  - Noting a search keeps the journal (`Going.noting`), and so does following a redirect, at any
    depth (`keeps_follow`).
  - What the journal of a whole turn says, for users of any kind that turns keep (`told_play`).
  - The report of every turn after every run is coherent (`report_coherent`).
-/

import Repartee.Proofs.Searches

namespace Repartee

/-- It says that a redirect was too deep. -/
def Diagnostic.IsTooDeep : Diagnostic → Prop
  | .redirectTooDeep _ => True
  | _ => False

namespace Turn

/-! ## The journal -/

/-- The step is the note of a search for the text by a user of some kind. -/
def Searched (r : Rulebook) (J : User → Prop) (text : String) (step : Step) : Prop :=
  ∃ u ranking, J u ∧ r.ranking? u.topic = some ranking ∧ step = stepOf r u ranking step.depth text

/-- The steps of the searches for these texts. -/
structure Journal (s : Scene) (J : User → Prop) (texts : List String) (steps : List Step) (tried : Nat) : Prop where
  searches : List.Forall₂ (Searched s.rules J) texts steps
  descending : steps.IsChain fun step next =>
    0 < next.depth ∧ next.depth ≤ s.settings.maxDepth ∧ next.depth ≤ step.depth + 1
  tried : tried = (steps.map (·.tried)).sum

/-- Turns keep users of this kind. -/
structure Keepable (s : Scene) (J : User → Prop) : Prop where
  set : ∀ {u : User} (name text : String), J u → J (u.set name text)
  setTopic : ∀ {u : User} (name : String), J u → J (u.setTopic name)
  call : ∀ {u : User} {name subroutine} (call : MacroCall), s.macros.resolve? name = some subroutine → J u →
    J (subroutine call u).2

/-- A turn is under way, its last search at this depth at least. All it has announced was searched for, but
what is ahead. -/
structure Going (s : Scene) (J : User → Prop) (message : String) (ahead : List String) (head : Option Step) (depth : Nat)
    (t : Turn) : Prop where
  user : J t.user
  journal : ∃ texts, message :: t.redirects = texts ++ ahead ∧ Journal s J texts t.steps t.tried
  head : t.steps.head? = head
  deep : ∀ last ∈ t.steps.getLast?, depth ≤ last.depth
  clean : ∀ d ∈ t.diagnostics, ¬ d.IsTooDeep

/-- A turn has gone too deep, and that was the last thing it noted. -/
structure Stopped (s : Scene) (J : User → Prop) (message : String) (head : Option Step) (t : Turn) : Prop where
  journal : Journal s J (message :: t.redirects) t.steps t.tried
  head : t.steps.head? = head
  last : ∃ before, t.diagnostics = before ++ [.redirectTooDeep s.settings.maxDepth] ∧ ∀ d ∈ before, ¬ d.IsTooDeep

section Journal

variable {s : Scene} {J : User → Prop} {message text : String} {texts ahead : List String} {head : Option Step}
  {depth tried : Nat} {steps : List Step} {t : Turn}

theorem Journal.noting (h : Journal s J texts steps tried) {step : Step} (hstep : Searched s.rules J text step)
    (hdepth : ∀ last ∈ steps.getLast?,
      0 < step.depth ∧ step.depth ≤ s.settings.maxDepth ∧ step.depth ≤ last.depth + 1) :
    Journal s J (texts ++ [text]) (steps ++ [step]) (tried + step.tried) := by
  refine ⟨List.rel_append h.searches (.cons hstep .nil), ?_, ?_⟩
  · rw [List.isChain_append]
    refine ⟨h.descending, List.isChain_singleton step, fun last hlast next hnext => ?_⟩
    rw [List.head?_singleton, Option.mem_some_iff] at hnext
    rw [← hnext]
    exact hdepth last hlast
  · rw [h.tried, List.map_append, List.sum_append, List.map_singleton, List.sum_singleton]

/-- What was ahead is searched for. -/
theorem Going.noting (h : Going s J message [text] head depth t) {step : Step} (hstep : Searched s.rules J text step)
    (hdepth : ∀ last ∈ t.steps.getLast?,
      0 < step.depth ∧ step.depth ≤ s.settings.maxDepth ∧ step.depth ≤ last.depth + 1) :
    Going s J message [] (some (head.getD step)) step.depth (t.noting step) := by
  obtain ⟨texts, htexts, hjournal⟩ := h.journal
  refine ⟨h.user, ⟨texts ++ [text], ?_, hjournal.noting hstep hdepth⟩, ?_, ?_, h.clean⟩
  · rw [List.append_nil]
    exact htexts
  · show (t.steps ++ [step]).head? = some (head.getD step)
    rw [List.head?_append, h.head]
    cases head with
    | none => rfl
    | some first => rfl
  · show ∀ last ∈ (t.steps ++ [step]).getLast?, step.depth ≤ last.depth
    simp

theorem steady_going (hJ : Keepable s J) :
    Steady s (fun d => ¬ d.IsTooDeep) (Going s J message ahead head depth) where
  draw h := ⟨h.user, h.journal, h.head, h.deep, h.clean⟩
  diagnose hd h := by
    refine ⟨h.user, h.journal, h.head, h.deep, fun d hmem => ?_⟩
    rcases List.mem_append.mp hmem with hold | hnew
    · exact h.clean d hold
    · rw [List.mem_singleton.mp hnew]
      exact hd
  set name text h := ⟨hJ.set name text h.user, h.journal, h.head, h.deep, h.clean⟩
  setTopic name h := ⟨hJ.setTopic name h.user, h.journal, h.head, h.deep, h.clean⟩
  call call hname h := ⟨hJ.call call hname h.user, h.journal, h.head, h.deep, h.clean⟩

theorem not_isTooDeep_of_mayLeave {captures : Captures} {p : Piece} {d : Diagnostic} (h : p.MayLeave captures d) :
    ¬ d.IsTooDeep := by
  intro hdeep
  cases d with
  | redirectTooDeep depth => cases p <;> simp [Piece.MayLeave] at h
  | _ => exact hdeep

/-- What is answered keeps the journal, if the answers to redirects do. -/
theorem keeps_answer (hJ : Keepable s J) {redirect : String → Play String} {E : Turn → Prop}
    (hredirect : ∀ target, Keeps (Going s J message ahead head depth) E (redirect target)) (found : Option Finding) :
    Keeps (Going s J message ahead head depth) E (answer s redirect found) := by
  cases found with
  | none => exact keeps_pure _
  | some f =>
    rw [answer]
    cases s.rules.catalog.triggers[f.candidate.trigger]? with
    | none => exact keeps_pure _
    | some trigger =>
      exact keeps_say (steady_going hJ) hredirect (trigger.each_of_forall fun p d => not_isTooDeep_of_mayLeave)

/-- A redirect is noted, searched for one step deeper and answered; beyond the depth allowed it ends the turn. -/
theorem keeps_follow (hJ : Keepable s J) (hready : s.rules.Ready) {first : Step}
    {left : Nat} (hleft : depth + left = s.settings.maxDepth) (target : String) :
    Keeps (Going s J message [] (some first) depth) (Stopped s J message (some first)) (follow s left target) := by
  induction left generalizing depth target with
  | zero =>
    refine ensures_follow_zero (fun t ht => ?_) target
    obtain ⟨texts, htexts, hjournal⟩ := ht.journal
    rw [List.append_nil] at htexts
    exact ⟨htexts ▸ hjournal, ht.head, t.diagnostics, rfl, ht.clean⟩
  | succ left ih =>
    have hdepth : s.settings.maxDepth - left = depth + 1 := by omega
    rw [follow, hdepth]
    refine (ensures_lift (Q := fun _ => Going s J message [target] (some first) depth) fun t ht => ?_).bind fun _ => ?_
    · obtain ⟨texts, htexts, hjournal⟩ := ht.journal
      refine ⟨ht.user, ⟨texts, ?_, hjournal⟩, ht.head, ht.deep, ht.clean⟩
      show message :: (t.redirects ++ [target]) = texts ++ [target]
      rw [← List.cons_append, htexts, List.append_nil]
    · refine (ensures_find (Q := fun _ => Going s J message [] (some first) (depth + 1)) hready (steady_going hJ)
        (fun _ h => h) fun t ranking ht hranking => ?_).bind fun found => ?_
      · have hdescends : ∀ last ∈ t.steps.getLast?,
            0 < depth + 1 ∧ depth + 1 ≤ s.settings.maxDepth ∧ depth + 1 ≤ last.depth + 1 := fun last hlast =>
          ⟨Nat.succ_pos depth, by omega, Nat.succ_le_succ (ht.deep last hlast)⟩
        have hstep : Searched s.rules J target (stepOf s.rules t.user ranking (depth + 1) target) :=
          ⟨t.user, ranking, ht.user, hranking, rfl⟩
        exact ht.noting hstep hdescends
      · have hdeeper : ∀ target, Keeps (Going s J message [] (some first) (depth + 1)) (Stopped s J message (some first))
            (follow s left target) := ih (by omega)
        refine (keeps_answer hJ hdeeper found).imp (fun t ht => ht) fun _ t ht => ?_
        exact ⟨ht.user, ht.journal, ht.head, fun last hlast => Nat.le_of_succ_le (ht.deep last hlast), ht.clean⟩

end Journal

/-! ## The report -/

/-- What a report says of a turn of a user of some kind. -/
structure Told (s : Scene) (J : User → Prop) (r : Report) : Prop where
  journal : Journal s J (r.message :: r.redirects) r.steps r.tried
  /-- The step of the message itself, and what was found. -/
  first : ∃ u ranking, J u ∧ s.rules.ranking? u.topic = some ranking ∧
    r.steps.head? = some (stepOf s.rules u ranking 0 r.message) ∧
    r.matched = (searched s.rules u ranking r.message).map (matchedBy s.rules)
  ended : r.aborted = false → ∀ d ∈ r.diagnostics, ¬ d.IsTooDeep
  aborted : r.aborted = true → r.reply = s.settings.deepRecursionReply ∧
    ∃ before, r.diagnostics = before ++ [.redirectTooDeep s.settings.maxDepth] ∧ ∀ d ∈ before, ¬ d.IsTooDeep

theorem told_play {s : Scene} {J : User → Prop} (hJ : Keepable s J)
    (hready : s.rules.Ready) {u : User} (hu : J u) (message : String) :
    Told s J (play s u message).1 := by
  have hstart : Going s J message [message] none 0 { user := u } :=
    ⟨hu, ⟨[], rfl, .nil, .nil, rfl⟩, rfl, by simp, by simp⟩
  have hfind : Ensures (Going s J message [message] none 0) (fun found t => ∃ u ranking, J u ∧
      s.rules.ranking? u.topic = some ranking ∧ found = searched s.rules u ranking message ∧
      Going s J message [] (some (stepOf s.rules u ranking 0 message)) 0 t) (fun _ => False)
      (liftM (find s 0 message) : Play (Option Finding)) := by
    refine ensures_find hready (steady_going hJ) (fun _ h => h) fun t ranking ht hranking => ?_
    refine ⟨t.user, ranking, ht.user, hranking, rfl, ht.noting ⟨t.user, ranking, ht.user, hranking, rfl⟩ ?_⟩
    intro last hlast
    rw [List.head?_eq_none_iff.mp ht.head] at hlast
    cases hlast
  rw [play]
  have hsearched := hfind.of_lift hstart
  generalize (find s 0 message).run { user := u } = result at hsearched ⊢
  obtain ⟨found, t⟩ := result
  obtain ⟨v, ranking, hv, hranking, hfound, hgoing⟩ := hsearched
  dsimp only at hfound hgoing
  subst hfound
  have hanswer : Keeps (Going s J message [] (some (stepOf s.rules v ranking 0 message)) 0)
      (Stopped s J message (some (stepOf s.rules v ranking 0 message)))
      (answer s (follow s s.settings.maxDepth) (searched s.rules v ranking message)) :=
    keeps_answer hJ (keeps_follow hJ hready (Nat.zero_add _)) _
  dsimp only
  rcases hanswered : (answer s (follow s s.settings.maxDepth) (searched s.rules v ranking message)).run t with
    ⟨_ | reply, t'⟩
  · have hstopped := hanswer.aborted hgoing hanswered
    exact ⟨hstopped.journal, ⟨v, ranking, hv, hranking, hstopped.head, rfl⟩, by simp, fun _ => ⟨rfl, hstopped.last⟩⟩
  · have hended := hanswer.ended hgoing hanswered
    obtain ⟨texts, htexts, hjournal⟩ := hended.journal
    rw [List.append_nil] at htexts
    exact ⟨htexts ▸ hjournal, ⟨v, ranking, hv, hranking, hended.head, rfl⟩, fun _ => hended.clean, by simp⟩

/-- The report fits together. -/
structure Report.Coherent (rules : Rulebook) (settings : Settings) (r : Report) : Prop where
  length : r.steps.length = r.redirects.length + 1
  /-- The message and the redirects were searched for, in their order. -/
  inputs : r.steps.map (·.input) = (r.message :: r.redirects).map fun text => Text.spaced (rules.lexicon.words text)
  first : ∃ first, r.steps.head? = some first ∧ first.depth = 0 ∧ r.matched.map (·.pattern) = first.matched
  descending : r.steps.IsChain fun step next =>
    1 ≤ next.depth ∧ next.depth ≤ settings.maxDepth ∧ next.depth ≤ step.depth + 1
  tried : r.tried = (r.steps.map (·.tried)).sum
  ranked : ∀ step ∈ r.steps, ∃ ranking, rules.ranking? step.topic = some ranking ∧ step.tried ≤ ranking.size ∧
    (step.matched = none → step.tried = ranking.size)
  aborted : r.aborted = true ↔ ∃ d ∈ r.diagnostics, d.IsTooDeep
  /-- An abort is the last thing noted, and is noted once. -/
  last : r.aborted = true → r.reply = settings.deepRecursionReply ∧
    ∃ before, r.diagnostics = before ++ [.redirectTooDeep settings.maxDepth] ∧ ∀ d ∈ before, ¬ d.IsTooDeep

theorem Searched.ranked {r : Rulebook} {J : User → Prop} {text : String} {step : Step} (h : Searched r J text step) :
    step.input = Text.spaced (r.lexicon.words text) ∧ ∃ ranking, r.ranking? step.topic = some ranking ∧
      step.tried ≤ ranking.size ∧ (step.matched = none → step.tried = ranking.size) := by
  obtain ⟨u, ranking, -, hranking, hstep⟩ := h
  rw [hstep]
  refine ⟨rfl, ranking, hranking, ?_, fun hmatched => ?_⟩
  · rw [stepOf]
    cases hfound : searched r u ranking text with
    | none => exact Nat.le_refl _
    | some f => exact Catalog.tried_le_size hfound
  · rw [stepOf, Option.map_eq_none_iff] at hmatched
    rw [stepOf, hmatched]
    rfl

theorem Told.coherent {s : Scene} {J : User → Prop} {r : Report} (h : Told s J r) : r.Coherent s.rules s.settings := by
  have hsearched : ∀ step ∈ r.steps, ∃ text, Searched s.rules J text step := by
    intro step hstep
    obtain ⟨i, hi, rfl⟩ := List.mem_iff_getElem.mp hstep
    have htext := h.journal.searches.length_eq
    exact ⟨_, h.journal.searches.get (htext ▸ hi) hi⟩
  refine ⟨h.journal.searches.length_eq.symm, ?_, ?_, h.journal.descending, h.journal.tried, fun step hstep => ?_, ?_, h.aborted⟩
  · have hinputs := h.journal.searches.imp fun _ _ hstep => hstep.ranked.1
    rw [← List.forall₂_eq_eq_eq, List.forall₂_map_left_iff, List.forall₂_map_right_iff]
    exact hinputs.flip
  · obtain ⟨u, ranking, -, -, hhead, hmatched⟩ := h.first
    refine ⟨_, hhead, rfl, ?_⟩
    rw [hmatched, Option.map_map]
    rfl
  · obtain ⟨text, hstep⟩ := hsearched step hstep
    exact hstep.ranked.2
  · cases haborted : r.aborted with
    | true =>
      obtain ⟨-, before, hlast, -⟩ := h.aborted haborted
      refine ⟨fun _ => ⟨.redirectTooDeep s.settings.maxDepth, ?_, trivial⟩, fun _ => rfl⟩
      rw [hlast]
      exact List.mem_append_right before (List.mem_singleton_self _)
    | false =>
      refine ⟨by simp, fun hdeep => ?_⟩
      obtain ⟨d, hd, hdeep⟩ := hdeep
      exact absurd hdeep (h.ended haborted d hd)

end Turn

namespace Bot

/-- After any run, the report of the next turn fits together, whatever the message, and however the turn ends. -/
theorem report_coherent {settings : Settings} {b₀ : Bot} (h : Bot.new settings = .ok b₀) (events : List Event)
    (user message : String) :
    let b := b₀.after events
    (b.reply user message).1.Coherent b.rules settings := by
  intro b
  have hconsistent := consistent_after (consistent_new h) events
  have hkeepable : Turn.Keepable b.scene fun _ => True := ⟨fun _ _ _ => trivial, fun _ _ => trivial, fun _ _ _ => trivial⟩
  have htold := Turn.told_play hkeepable hconsistent.ready (u := b.roster.user user) trivial message
  rw [← hconsistent.kept]
  exact htold.coherent

/-- Twice a user is sent nowhere and home again, a redirect finds nothing, and the next one leads on until it
is too deep. -/
theorem report_coherent_too_deep :
    let settings : Settings := { maxDepth := 2 }
    let text := "+ down\n- \x7btopic=nowhere\x7d\x7b@nothing here\x7d\x7b@down\x7d"
    let events := [Event.load {} (.text "a" text)]
    ∃ b₀, Bot.new settings = .ok b₀ ∧
      let b := b₀.after events
      let r := (b.reply "u" "Down!").1
      (r.steps.map (·.depth) = [0, 1, 1, 2, 2] ∧ r.redirects = ["nothing here", "down", "nothing here", "down"] ∧
        r.tried = 5 ∧ r.diagnostics = [.unknownTopic "nowhere", .unknownTopic "nowhere", .redirectTooDeep 2]) ∧
      r.Coherent b.rules settings := by
  intro settings text events
  obtain ⟨b₀, hnew, hran⟩ : ∃ b₀, Bot.new settings = .ok b₀ ∧
      let r := ((b₀.after events).reply "u" "Down!").1
      r.steps.map (·.depth) = [0, 1, 1, 2, 2] ∧ r.redirects = ["nothing here", "down", "nothing here", "down"] ∧
        r.tried = 5 ∧ r.diagnostics = [.unknownTopic "nowhere", .unknownTopic "nowhere", .redirectTooDeep 2] :=
    exists_ok_of_any (by decide +kernel)
  exact ⟨b₀, hnew, hran, report_coherent hnew events "u" "Down!"⟩

end Bot

end Repartee
