/-
  Repartee.Proofs.Runs — what stays true of a bot whatever happens to it.

  A run is a list of events: loads of all kinds, replies, and changes to users and macros. Files
  may change between loads, and loads may fail.

  Proved:
  - At every point of a run the rules are compiled from the sources, in their order and under
    the settings the bot was made with (`consistent_step`, `consistent_after`).
  - A load anywhere in a run leaves the sources it should with the rules compiled from them, or
    fails and changes nothing but the macros (`load_atomic`).
-/

import Repartee.Proofs.Loading

namespace Repartee

/-- Something that happens to a bot. A load finds the files as they are at that time. -/
inductive Event where
  | load (files : Files) (l : Load)
  | reply (user message : String)
  | setUservars (user : String) (vars : List (String × String))
  | setSubroutine (name : String) (s : Subroutine)
  | removeSubroutine (name : String)
  | setHandler (language : String) (handler : Handler)

namespace Bot

def step (b : Bot) : Event → Bot
  | .load files l => (b.load files l).1
  | .reply user message => (b.reply user message).2
  | .setUservars user vars => b.setUservars user vars
  | .setSubroutine name s => b.setSubroutine name s
  | .removeSubroutine name => b.removeSubroutine name
  | .setHandler language handler => b.setHandler language handler

def after (b : Bot) (events : List Event) : Bot := events.foldl step b

/-! ## The rules in force -/

/-- The rules are compiled from the sources, unless nothing was loaded yet. -/
structure Consistent (settings : Settings) (b : Bot) : Prop where
  kept : b.settings = settings
  punctuation : settings.punctuationRegex = .ok b.punctuation
  rules : Rulebook.build b.punctuation settings (b.sources.map (·.script)) = .ok b.rules ∨
    b.sources = [] ∧ b.rules = .empty b.punctuation settings

/-- A load that succeeds leaves the sources it should, with the rules compiled from them. One that
fails changes nothing but the macros. -/
def Atomic (settings : Settings) (files : Files) (l : Load) (b b' : Bot) : Except LoadError Unit → Prop
  | .ok () => Leaves settings files b.sources l b'.sources ∧
      (∃ punctuation, settings.punctuationRegex = .ok punctuation ∧
        Rulebook.build punctuation settings (b'.sources.map (·.script)) = .ok b'.rules) ∧
      b' = { b with macros := b'.macros, sources := b'.sources, rules := b'.rules }
  | .error _ => b' = { b with macros := b'.macros }

variable {settings : Settings} {b b₀ : Bot}

theorem atomic_load (h : Consistent settings b) (files : Files) (l : Load) :
    Atomic settings files l b (b.load files l).1 (b.load files l).2 := by
  obtain ⟨rfl, hpunctuation, -⟩ := h
  rcases load_cases b files l with ⟨e, -, hload⟩ | ⟨fresh, macros, e, -, -, hload⟩ |
    ⟨fresh, rules, macros, hfresh, hbuild, -, hload⟩
  · rw [hload, Atomic]
  · rw [hload, Atomic]
  · rw [hload, Atomic]
    exact ⟨leaves_of_fresh hfresh, ⟨b.punctuation, hpunctuation, hbuild⟩, rfl⟩

theorem consistent_load (h : Consistent settings b) (files : Files) (l : Load) :
    Consistent settings (b.load files l).1 := by
  have hatomic := atomic_load h files l
  cases houtcome : (b.load files l).2 with
  | error e =>
    rw [houtcome, Atomic] at hatomic
    rw [hatomic]
    exact ⟨h.kept, h.punctuation, h.rules⟩
  | ok _ =>
    rw [houtcome, Atomic] at hatomic
    obtain ⟨-, ⟨punctuation, hpunctuation, hbuild⟩, hsame⟩ := hatomic
    cases h.punctuation.symm.trans hpunctuation
    rw [hsame]
    exact ⟨h.kept, h.punctuation, .inl hbuild⟩

/-- No event but a load touches settings, sources or rules. -/
theorem consistent_step (h : Consistent settings b) (e : Event) : Consistent settings (b.step e) := by
  cases e with
  | load files l => exact consistent_load h files l
  | reply user message => exact ⟨h.kept, h.punctuation, h.rules⟩
  | setUservars user vars => exact ⟨h.kept, h.punctuation, h.rules⟩
  | setSubroutine name s => exact ⟨h.kept, h.punctuation, h.rules⟩
  | removeSubroutine name => exact ⟨h.kept, h.punctuation, h.rules⟩
  | setHandler language handler => exact ⟨h.kept, h.punctuation, h.rules⟩

theorem consistent_after (h : Consistent settings b) (events : List Event) :
    Consistent settings (b.after events) := by
  induction events generalizing b with
  | nil => exact h
  | cons e events ih => exact ih (consistent_step h e)

theorem consistent_new (h : Bot.new settings = .ok b₀) : Consistent settings b₀ := by
  obtain ⟨punctuation, hpunctuation, hnew⟩ := bind_eq_ok.mp h
  cases hnew
  exact ⟨rfl, hpunctuation, .inr ⟨rfl, rfl⟩⟩

/-! ## Loads within a run -/

/-- Whatever happened to a bot, its rules are those of its sources, and a load is done wholly or not
at all. -/
theorem load_atomic (h : Bot.new settings = .ok b₀) (events : List Event) (files : Files) (l : Load) :
    let b := b₀.after events
    Consistent settings b ∧ Atomic settings files l b (b.load files l).1 (b.load files l).2 := by
  have hconsistent := consistent_after (consistent_new h) events
  exact ⟨hconsistent, atomic_load hconsistent files l⟩

/-- A file that was loaded, and then another that is not there, before all is loaded again. -/
theorem load_atomic_again :
    let before := ({} : Files).write "bye.rive" (some "+ bye\n- See you!")
    let now := ({} : Files).write "bye.rive" (some "+ bye\n- Farewell!")
    let events : List Event := [.load before (.text "hello" "+ hello bot\n- Hello, human!"),
      .load before (.file "bye.rive"), .reply "alice" "hello bot", .load before (.file "none.rive")]
    ∃ b₀, Bot.new {} = .ok b₀ ∧
      (((b₀.after events).load now .again).2 = .ok () ∧ (b₀.after events).sources.length = 2) ∧
      Consistent {} (b₀.after events) ∧
      Atomic {} now .again (b₀.after events) ((b₀.after events).load now .again).1
        ((b₀.after events).load now .again).2 := by
  intro before now events
  obtain ⟨b₀, hnew, hran⟩ : ∃ b₀, Bot.new {} = .ok b₀ ∧
      (((b₀.after events).load now .again).2 = .ok () ∧ (b₀.after events).sources.length = 2) :=
    exists_ok_of_any (by decide +kernel)
  exact ⟨b₀, hnew, hran, load_atomic hnew events now .again⟩

end Bot

end Repartee
