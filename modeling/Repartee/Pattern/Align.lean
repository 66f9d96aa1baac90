/-
  Repartee.Pattern.Align — aligning a pattern with the words of a message.

  A search keeps a stack of partial alignments, best first. Expanding one lists its
  continuations by the next item, best first: the longest span of a wildcard, the alternatives
  of a group as they stand, a skipped optional group last. A wildcard leaves the items after it
  the words they need at least.

  Captures do not influence what can follow, so a place, given by how many items and words are
  used up, is expanded once only. No partial alignment goes past the last item or the last word
  (`inside_step`), so there are only so many places, which is why the search ends (`left_step`).
-/

import Repartee.Pattern.Basic
import Repartee.Text.Split

namespace Repartee.Pattern

/-- A partial alignment: how many items and words it has used up, and its captures so far. -/
structure Partial where
  item : Nat
  position : Nat
  captures : List String
  deriving DecidableEq, Repr

def Partial.place (a : Partial) : Nat × Nat := (a.item, a.position)

/-- One way in which an item takes words: how many, and what it captures. -/
structure Move where
  words : Nat
  captures : List String
  deriving DecidableEq, Repr

/-- The partial alignment after the next item has made a move. -/
def Partial.advance (a : Partial) (m : Move) : Partial :=
  { item := a.item + 1, position := a.position + m.words, captures := a.captures ++ m.captures }

/-! ## Moves -/

/-- The numbers from `n` down to 1. -/
def downFrom : Nat → List Nat
  | 0 => []
  | n + 1 => (n + 1) :: downFrom n

/-- How many words a wildcard can take if it leaves the words held in reserve. -/
def span (k : Wildcard) (reserve : Nat) (message : List String) : Nat :=
  ((message.take (message.length - reserve)).takeWhile k.accepts).length

/-- The moves by one alternative of an optional group. -/
def optionMoves (reserve : Nat) (message : List String) : OptionAlt → List Move
  | .words ws => if ws.isPrefixOf message then [⟨ws.length, []⟩] else []
  | .anyWords => (downFrom (message.length - reserve)).map (⟨·, []⟩)

/-- The moves of an item at the words of a message, best first. -/
def moves (reserve : Nat) (message : List String) : Item → List Move
  | .word w => if message.head? = some w then [⟨1, []⟩] else []
  | .wildcard k => (downFrom (span k reserve message)).map fun n => ⟨n, [Text.spaced (message.take n)]⟩
  | .choice alternatives =>
    (alternatives.filter (·.isPrefixOf message)).map fun ws => ⟨ws.length, [Text.spaced ws]⟩
  | .optional alternatives => alternatives.flatMap (optionMoves reserve message) ++ [⟨0, []⟩]

/-- A bound on the moves of an item at a message and at any rest of it. -/
def moveBound (message : List String) : Item → Nat
  | .word _ => 1
  | .wildcard _ => message.length
  | .choice alternatives => alternatives.length
  | .optional alternatives => alternatives.length * (message.length + 1) + 1

theorem mem_downFrom {n m : Nat} : n ∈ downFrom m ↔ 0 < n ∧ n ≤ m := by
  induction m with
  | zero => simp [downFrom]; omega
  | succ m ih => simp only [downFrom, List.mem_cons, ih]; omega

theorem span_le (k : Wildcard) (reserve : Nat) (message : List String) :
    span k reserve message ≤ message.length := by
  have h := (List.takeWhile_prefix k.accepts (l := message.take (message.length - reserve))).length_le
  simp only [List.length_take] at h
  simp only [span]
  omega

theorem length_downFrom (n : Nat) : (downFrom n).length = n := by
  induction n with
  | zero => rfl
  | succ n ih => rw [downFrom, List.length_cons, ih]

theorem length_optionMoves_le (reserve : Nat) (message : List String) (o : OptionAlt) :
    (optionMoves reserve message o).length ≤ message.length + 1 := by
  cases o with
  | words ws =>
    simp only [optionMoves]
    split <;> simp
  | anyWords =>
    rw [optionMoves, List.length_map, length_downFrom]
    omega

theorem length_moves_le (reserve : Nat) (item : Item) {message rest : List String}
    (h : rest.length ≤ message.length) : (moves reserve rest item).length ≤ moveBound message item := by
  cases item with
  | word w =>
    simp only [moves]
    split <;> simp [moveBound]
  | wildcard k =>
    rw [moves, List.length_map, length_downFrom]
    exact Nat.le_trans (span_le k reserve rest) h
  | choice alternatives =>
    rw [moves, List.length_map]
    exact List.length_filter_le _ _
  | optional alternatives =>
    simp only [moves, moveBound, List.length_append, List.length_singleton, Nat.add_le_add_iff_right]
    induction alternatives with
    | nil => simp
    | cons o alternatives ih =>
      have := length_optionMoves_le reserve rest o
      rw [List.flatMap_cons, List.length_append, List.length_cons, Nat.succ_mul]
      omega

theorem words_le_of_mem_moves {reserve : Nat} {message : List String} {item : Item} {m : Move}
    (h : m ∈ moves reserve message item) : m.words ≤ message.length := by
  cases item with
  | word w =>
    simp only [moves] at h
    split at h
    · rename_i hw
      cases message with
      | nil => simp at hw
      | cons _ _ => simp only [List.mem_singleton] at h; simp [h]
    · simp at h
  | wildcard k =>
    obtain ⟨n, hn, rfl⟩ := List.mem_map.mp h
    exact Nat.le_trans (mem_downFrom.mp hn).2 (span_le ..)
  | choice alternatives =>
    obtain ⟨ws, hws, rfl⟩ := List.mem_map.mp h
    exact (List.isPrefixOf_iff_prefix.mp (List.mem_filter.mp hws).2).length_le
  | optional alternatives =>
    rcases List.mem_append.mp h with h | h
    · obtain ⟨o, -, h⟩ := List.mem_flatMap.mp h
      cases o with
      | words ws =>
        simp only [optionMoves] at h
        split at h
        · rename_i hp
          simp only [List.mem_singleton] at h
          simp only [h]
          exact (List.isPrefixOf_iff_prefix.mp hp).length_le
        · simp at h
      | anyWords =>
        obtain ⟨n, hn, rfl⟩ := List.mem_map.mp h
        have := (mem_downFrom.mp hn).2
        simp only
        omega
    · simp only [List.mem_singleton] at h
      simp [h]

/-! ## The search -/

/-- The search at work: the partial alignments still to be tried, best first, and the places that
were expanded, latest first. -/
structure Search where
  stack : List Partial
  seen : List (Nat × Nat)
  deriving DecidableEq, Repr

inductive Progress where
  | working (s : Search)
  /-- The captures of the best alignment, if there is one. -/
  | done (captures : Option (List String))
  deriving DecidableEq, Repr

/-- The words that the items from `i` on take at least. -/
def minWordsFrom (p : Pattern) (i : Nat) : Nat := minWords (p.items.drop i)

/-- The continuations of a partial alignment by the next item, best first. -/
def continuations (p : Pattern) (message : List String) (a : Partial) (next : Item) : List Partial :=
  (moves (p.minWordsFrom (a.item + 1)) (message.drop a.position) next).map a.advance

/-- Take the best partial alignment from the stack and expand it, if its place was not expanded. -/
def step (p : Pattern) (message : List String) (s : Search) : Progress :=
  match s.stack with
  | [] => .done none
  | a :: stack =>
    match p.items[a.item]? with
    | none => if a.position = message.length then .done (some a.captures) else .working { s with stack }
    | some next =>
      if a.place ∈ s.seen then .working { s with stack }
      else .working { stack := p.continuations message a next ++ stack, seen := a.place :: s.seen }

def start : Search := { stack := [{ item := 0, position := 0, captures := [] }], seen := [] }

/-- No partial alignment has used more items or words than there are. -/
def Inside (p : Pattern) (message : List String) (s : Search) : Prop :=
  ∀ a ∈ s.stack, a.item ≤ p.items.length ∧ a.position ≤ message.length

/-- Every place with at most so many items and words used up. -/
def places (items words : Nat) : List (Nat × Nat) :=
  (List.range (items + 1)).flatMap fun i => (List.range (words + 1)).map fun j => (i, j)

/-- The places not expanded yet. -/
def unseen (p : Pattern) (message : List String) (s : Search) : List (Nat × Nat) :=
  (places p.items.length message.length).filter (· ∉ s.seen)

/-- A bound on the continuations of one partial alignment. -/
def breadth (p : Pattern) (message : List String) : Nat :=
  p.items.foldr (fun item n => moveBound message item + n) 0

/-- A bound on the steps that a search still takes. -/
def left (p : Pattern) (message : List String) (s : Search) : Nat :=
  (p.unseen message s).length * (p.breadth message + 1) + s.stack.length

/-- What a step that goes on does: it drops the best partial alignment, which is used up or at a
place seen before, or it expands it. -/
theorem step_working {p : Pattern} {message : List String} {s s' : Search}
    (h : p.step message s = .working s') :
    ∃ a stack, s.stack = a :: stack ∧
      (s' = { s with stack } ∧
          (p.items[a.item]? = none ∧ a.position ≠ message.length ∨ p.items[a.item]? ≠ none ∧ a.place ∈ s.seen) ∨
        ∃ next, p.items[a.item]? = some next ∧ a.place ∉ s.seen ∧
          s' = { stack := p.continuations message a next ++ stack, seen := a.place :: s.seen }) := by
  simp only [step] at h
  split at h
  · cases h
  · rename_i a stack hs
    refine ⟨a, stack, hs, ?_⟩
    split at h
    · rename_i hi
      split at h
      · cases h
      · rename_i hp
        cases h
        exact .inl ⟨rfl, .inl ⟨hi, hp⟩⟩
    · rename_i next hi
      split at h
      · rename_i hseen
        cases h
        exact .inl ⟨rfl, .inr ⟨by simp [hi], hseen⟩⟩
      · rename_i hseen
        cases h
        exact .inr ⟨next, hi, hseen, rfl⟩

theorem inside_step {p : Pattern} {message : List String} {s s' : Search} (hs : p.Inside message s)
    (h : p.step message s = .working s') : p.Inside message s' := by
  obtain ⟨a, stack, hstack, ⟨rfl, -⟩ | ⟨next, hi, -, rfl⟩⟩ := step_working h
  · intro b hb
    exact hs b (by rw [hstack]; exact List.mem_cons_of_mem _ hb)
  · intro b hb
    rcases List.mem_append.mp hb with hb | hb
    · obtain ⟨m, hm, rfl⟩ := List.mem_map.mp hb
      have hle := words_le_of_mem_moves hm
      have hlt := (List.getElem?_eq_some_iff.mp hi).1
      have := (hs a (by simp [hstack])).2
      simp only [List.length_drop] at hle
      simp only [Partial.advance]
      omega
    · exact hs b (by rw [hstack]; exact List.mem_cons_of_mem _ hb)

theorem mem_places {items words : Nat} {q : Nat × Nat} : q ∈ places items words ↔ q.1 ≤ items ∧ q.2 ≤ words := by
  obtain ⟨i, j⟩ := q
  simp only [places, List.mem_flatMap, List.mem_map, List.mem_range, Prod.mk.injEq]
  grind

theorem length_unseen_lt {p : Pattern} {message : List String} {s : Search} {q : Nat × Nat}
    (hin : q ∈ places p.items.length message.length) (hq : q ∉ s.seen) (stack : List Partial) :
    (p.unseen message { stack, seen := q :: s.seen }).length < (p.unseen message s).length := by
  have h : p.unseen message { stack, seen := q :: s.seen } = (p.unseen message s).filter (· ≠ q) := by
    rw [unseen, unseen, List.filter_filter]
    congr 1
    funext x
    simp [not_or]
  rw [h]
  exact List.length_filter_lt_length_iff_exists.mpr ⟨q, by simp [unseen, hin, hq], by simp⟩

theorem moveBound_le_breadth {p : Pattern} {item : Item} (h : item ∈ p.items) (message : List String) :
    moveBound message item ≤ p.breadth message := by
  simp only [breadth]
  generalize p.items = items at h
  induction items with
  | nil => simp at h
  | cons i items ih =>
    rw [List.foldr_cons]
    rcases List.mem_cons.mp h with rfl | h
    · omega
    · have := ih h
      omega

theorem length_continuations_le {p : Pattern} {a : Partial} {next : Item} (h : p.items[a.item]? = some next)
    (message : List String) : (p.continuations message a next).length ≤ p.breadth message := by
  have hmoves := length_moves_le (p.minWordsFrom (a.item + 1)) next (List.drop_suffix a.position message).length_le
  have := moveBound_le_breadth (List.mem_of_getElem? h) message
  rw [continuations, List.length_map]
  omega

theorem left_step {p : Pattern} {message : List String} {s s' : Search} (hs : p.Inside message s)
    (h : p.step message s = .working s') : p.left message s' < p.left message s := by
  obtain ⟨a, stack, hstack, ⟨rfl, -⟩ | ⟨next, hnext, hseen, rfl⟩⟩ := step_working h
  · simp [left, unseen, hstack]
  · have hlt := length_unseen_lt (mem_places.mpr (hs a (by simp [hstack]))) hseen
      (p.continuations message a next ++ stack)
    have hle := length_continuations_le hnext message
    have hmul := Nat.mul_le_mul_right (p.breadth message + 1) hlt
    rw [Nat.succ_mul] at hmul
    simp only [left, hstack, List.length_append, List.length_cons]
    omega

/-- Search on until the search is done. -/
def run (p : Pattern) (message : List String) (s : Search) (hs : p.Inside message s) : Option (List String) :=
  match h : p.step message s with
  | .done captures => captures
  | .working s' => p.run message s' (inside_step hs h)
termination_by p.left message s
decreasing_by exact left_step hs h

theorem inside_start (p : Pattern) (message : List String) : p.Inside message start := by
  intro a ha
  simp only [start, List.mem_singleton] at ha
  simp [ha]

/-- The captures of the best alignment of all items with all words, if there is one. -/
def align (p : Pattern) (message : List String) : Option (List String) :=
  p.run message start (p.inside_start message)

end Repartee.Pattern
