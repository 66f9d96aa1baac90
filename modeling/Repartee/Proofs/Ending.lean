/-
  Repartee.Proofs.Ending — every turn ends.

  Rules may redirect to themselves or to each other, from any place in a template. A turn ends
  all the same: among the parts that have begun and not ended, each is smaller than its caller.

  Proved:
  - What holds of the machine at every step of a turn (`sound_step`, `sound_after`).
  - An abort starts at a redirect too deep (`aborted_step`).
  - The machine comes to its end after some number of steps, with the reply or abort that the
    turn reports (`turn_ends`).
-/

import Repartee.Proofs.Calls.Measure

namespace Repartee

namespace Turn

namespace Machine

/-- The parts that have begun and not ended, the one that is running first. -/
def active (m : Machine) : List Call := m.running :: m.waiting.map (·.caller)

def Aborted (m : Machine) : Prop := ∃ e t, m.routine = .ended (.error e) t

/-- What holds at every step of a turn. -/
structure Sound (s : Scene) (m : Machine) : Prop where
  running : m.Aborted ∨ m.routine.Within s (Callable s m.running) fun _ => True
  waiting : ∀ f ∈ m.waiting, ∀ text t, Bounded s t → (f.resume text t).Within s (Callable s f.caller) fun _ => True
  /-- Each part is smaller than the one that called it. -/
  descending : m.active.IsChain fun c c' => c.measure s < c'.measure s
  aborted : m.running.TooDeep s → m.Aborted
  callers : ∀ f ∈ m.waiting, ¬ f.caller.TooDeep s

variable {s : Scene} {m : Machine}

theorem not_aborted_of_within {P : Call → Prop} {Q : String → Prop} (h : m.routine.Within s P Q) : ¬ m.Aborted := by
  intro ⟨e, t, hr⟩
  rw [hr] at h
  cases h

/-- A call begins as a part of its own, or aborts at once. -/
theorem begins {c : Call} (hc : c.Near s) {t : Turn} (ht : Bounded s t) (waiting : List Frame) :
    (¬ c.TooDeep s ∧ (part s c t).Within s (Callable s c) fun _ => True) ∨
      c.TooDeep s ∧ Aborted ⟨c, part s c t, waiting⟩ := by
  rcases hc with hdepth | hdeep
  · exact .inl ⟨not_tooDeep hdepth, within_part hdepth t ht⟩
  · obtain ⟨t', hpart, -⟩ := part_of_tooDeep hdeep t
    exact .inr ⟨hdeep, _, t', hpart⟩

/-- What one step does to a machine that is sound. -/
theorem step_cases (h : Sound s m) :
    (∃ c t resume, m.routine = .calls c t resume ∧ ¬ m.Aborted ∧ Bounded s t ∧ Callable s m.running c ∧
      (∀ text t, Bounded s t → (resume text t).Within s (Callable s m.running) fun _ => True) ∧
      m.step s = ⟨c, part s c t, ⟨m.running, resume⟩ :: m.waiting⟩) ∨
    (∃ text t f waiting, m.routine = .ended (.ok text) t ∧ m.waiting = f :: waiting ∧ Bounded s t ∧
      m.step s = ⟨f.caller, f.resume text t, waiting⟩) ∨
    (∃ e t f waiting, m.routine = .ended (.error e) t ∧ m.waiting = f :: waiting ∧
      m.step s = ⟨f.caller, .ended (.error e) t, waiting⟩) ∨
    (∃ o t, m.routine = .ended o t ∧ m.waiting = [] ∧ m.step s = m) := by
  obtain ⟨running, routine, waiting⟩ := m
  rcases h.running with ⟨e, t, hr⟩ | hr
  · cases hr
    cases waiting with
    | nil => exact .inr (.inr (.inr ⟨_, t, rfl, rfl, rfl⟩))
    | cons f waiting => exact .inr (.inr (.inl ⟨e, t, f, waiting, rfl, rfl, rfl⟩))
  · have hnot := not_aborted_of_within hr
    cases hr with
    | @calls c t resume ht hc hresume => exact .inl ⟨c, t, resume, rfl, hnot, ht, hc, hresume, rfl⟩
    | @ended text t ht _ =>
      cases waiting with
      | nil => exact .inr (.inr (.inr ⟨_, t, rfl, rfl, rfl⟩))
      | cons f waiting => exact .inr (.inl ⟨text, t, f, waiting, rfl, rfl, ht, rfl⟩)

/-- What waits for a part that has ended may go on. -/
theorem sound_return (h : Sound s m) {f : Frame} {waiting : List Frame} (hw : m.waiting = f :: waiting)
    {r : Routine String}
    (hr : Aborted ⟨f.caller, r, waiting⟩ ∨ r.Within s (Callable s f.caller) fun _ => True) :
    Sound s ⟨f.caller, r, waiting⟩ := by
  have hwaiting := h.waiting
  have hcallers := h.callers
  have hdescending := h.descending
  rw [active, hw] at hdescending
  rw [hw, List.forall_mem_cons] at hwaiting hcallers
  refine ⟨hr, hwaiting.2, ?_, fun hdeep => absurd hdeep hcallers.1, hcallers.2⟩
  exact (List.isChain_cons_cons.mp hdescending).2

theorem sound_step (h : Sound s m) : Sound s (m.step s) := by
  rcases step_cases h with ⟨c, t, resume, -, hnot, ht, hc, hresume, hstep⟩ | ⟨text, t, f, waiting, -, hw, ht, hstep⟩ |
    ⟨e, t, f, waiting, -, hw, hstep⟩ | ⟨o, t, -, -, hstep⟩
  · rw [hstep]
    have hcaller : ¬ m.running.TooDeep s := fun hdeep => hnot (h.aborted hdeep)
    refine ⟨?_, List.forall_mem_cons.mpr ⟨hresume, h.waiting⟩, ?_, fun hdeep => ?_,
      List.forall_mem_cons.mpr ⟨hcaller, h.callers⟩⟩
    · exact (begins hc.1 ht _).symm.imp And.right And.right
    · exact List.isChain_cons_cons.mpr ⟨hc.2, h.descending⟩
    · exact (begins hc.1 ht _).elim (fun hbegins => absurd hdeep hbegins.1) And.right
  · rw [hstep]
    exact sound_return h hw (.inr (h.waiting f (hw ▸ List.mem_cons_self) text t ht))
  · rw [hstep]
    exact sound_return h hw (.inl ⟨e, t, rfl⟩)
  · rw [hstep]
    exact h

theorem sound_start (s : Scene) (user : User) (message : String) : Sound s (start s user message) := by
  have hdepth : (Call.message message).depth ≤ s.settings.maxDepth := Nat.zero_le _
  have hwithin := within_part hdepth { user } nofun
  exact ⟨.inr hwithin, nofun, by simp [active, start], fun hdeep => absurd hdeep (not_tooDeep hdepth), nofun⟩

theorem sound_after (s : Scene) (user : User) (message : String) (n : ℕ) :
    Sound s ((step s)^[n] (start s user message)) := by
  induction n with
  | zero => exact sound_start s user message
  | succ n ih =>
    rw [Function.iterate_succ_apply']
    exact sound_step ih

/-- An abort is either handed on or starts at a redirect too deep. -/
theorem aborted_step (h : Sound s m) (ha : (m.step s).Aborted) : m.Aborted ∨ (m.step s).running.TooDeep s := by
  rcases step_cases h with ⟨c, t, resume, -, -, ht, hc, -, hstep⟩ | ⟨text, t, f, waiting, -, hw, ht, hstep⟩ |
    ⟨e, t, f, waiting, hr, -, -⟩ | ⟨o, t, -, -, hstep⟩
  · rw [hstep] at ha ⊢
    rcases begins hc.1 ht [] with ⟨-, hwithin⟩ | ⟨hdeep, -⟩
    · exact absurd ha (not_aborted_of_within hwithin)
    · exact .inr hdeep
  · rw [hstep] at ha
    have hwithin := h.waiting f (hw ▸ List.mem_cons_self) text t ht
    exact absurd ha (not_aborted_of_within hwithin)
  · exact .inl ⟨e, t, hr⟩
  · rw [hstep] at ha
    exact .inl ha

end Machine

/-! ## The end of a turn -/

/-- The report says what the turn came to. -/
structure Tells (s : Scene) (r : Report) (outcome : Except Abort String) (t : Turn) : Prop where
  reply : r.reply = match outcome with
    | .ok reply => reply
    | .error _ => s.settings.deepRecursionReply
  aborted : r.aborted = true ↔ ∃ e, outcome = .error e
  redirects : r.redirects = t.redirects
  diagnostics : r.diagnostics = t.diagnostics
  steps : r.steps = t.steps

theorem tells_play (s : Scene) (user : User) (message : String) :
    let result := (meaning s (.message message)).run { user }
    Tells s (play s user message).1 result.1 result.2 := by
  obtain ⟨finding, t, hfind⟩ : ∃ finding t, (find s 0 message).run { user } = (finding, t) := ⟨_, _, rfl⟩
  obtain ⟨outcome, t', hanswer⟩ : ∃ outcome t', (answer s (follow s s.settings.maxDepth) finding).run t = (outcome, t') :=
    ⟨_, _, rfl⟩
  have hmeaning : (meaning s (.message message)).run { user } = (outcome, t') := by
    rw [← hanswer]
    change (answer s (follow s s.settings.maxDepth) ((find s 0 message).run { user }).1).run
      ((find s 0 message).run { user }).2 = _
    rw [hfind]
  simp only [hmeaning, play, hfind, hanswer]
  cases outcome with
  | ok reply => exact ⟨rfl, by simp, rfl, rfl, rfl⟩
  | error e => exact ⟨rfl, ⟨fun _ => ⟨e, rfl⟩, fun _ => rfl⟩, rfl, rfl, rfl⟩

open Machine in
/-- Calls only get smaller, in an order without infinite descent, and the machine halts with what the turn reports. -/
theorem turn_ends (s : Scene) (user : User) (message : String) :
    WellFounded (fun c c' : Call => c.measure s < c'.measure s) ∧
    (∀ n, ((step s)^[n] (start s user message)).active.IsChain fun c c' => c.measure s < c'.measure s) ∧
    ∃ n outcome t, (step s)^[n] (start s user message) = ⟨.message message, .ended outcome t, []⟩ ∧
      Tells s (play s user message).1 outcome t := by
  refine ⟨InvImage.wf _ wellFounded_lt, fun n => (sound_after s user message n).descending, ?_⟩
  have hnear : (Call.message message).Near s := .inl (Nat.zero_le _)
  obtain ⟨-, hleads⟩ := leads_call hnear (t := { user }) nofun
  obtain ⟨n, hn⟩ := hleads []
  exact ⟨n, _, _, hn, tells_play s user message⟩

end Turn

end Repartee
