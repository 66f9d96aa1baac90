/-
  Repartee.Text.Split — cutting a text into pieces.

  - `fields p` cuts at every character that satisfies `p`: one piece more than cuts.
  - `words` are the maximal runs of characters that are not blank.
  - `cutOnce p` cuts at the first such character and drops it; `cutAt s` does so at the first
    occurrence of a string.
  - `trim` drops the blanks at both ends.
-/

import Repartee.Unicode.Blank

namespace Repartee.Text

open Unicode (isBlank)

def trimStart (cs : List Char) : List Char := cs.dropWhile isBlank

/-- Drop the trailing characters that satisfy `p`. -/
def dropEndWhile (p : Char → Bool) (cs : List Char) : List Char := (cs.reverse.dropWhile p).reverse

def trim (cs : List Char) : List Char := dropEndWhile isBlank (trimStart cs)

/-- The pieces between the characters that satisfy `p`. -/
def fields (p : Char → Bool) : List Char → List (List Char)
  | [] => [[]]
  | c :: cs => if p c then [] :: fields p cs else (fields p cs).modifyHead (c :: ·)

/-- The maximal runs of characters that are not blank. -/
def words (cs : List Char) : List (List Char) := (fields isBlank cs).filter (!·.isEmpty)

/-- What stands before and after the first character that satisfies `p`. -/
def cutOnce (p : Char → Bool) (cs : List Char) : Option (List Char × List Char) :=
  match cs.dropWhile (!p ·) with
  | [] => none
  | _ :: after => some (cs.takeWhile (!p ·), after)

/-- Put a character in front of the first of two pieces. -/
def prepend (c : Char) (pieces : List Char × List Char) : List Char × List Char :=
  (c :: pieces.1, pieces.2)

theorem map_prepend_eq_some {c : Char} {found : Option (List Char × List Char)} {before rest : List Char} :
    found.map (prepend c) = some (before, rest) ↔ ∃ b, found = some (b, rest) ∧ before = c :: b := by
  cases found with
  | none => simp
  | some pieces =>
    obtain ⟨b, r⟩ := pieces
    simp only [Option.map_some, prepend, Option.some.injEq, Prod.mk.injEq]
    constructor
    · rintro ⟨rfl, rfl⟩
      exact ⟨b, ⟨rfl, rfl⟩, rfl⟩
    · rintro ⟨b', ⟨rfl, rfl⟩, rfl⟩
      exact ⟨rfl, rfl⟩

/-- The rest of `cs` after `start`, if `cs` begins with it. -/
def after? : List Char → List Char → Option (List Char)
  | [], cs => some cs
  | _ :: _, [] => none
  | s :: start, c :: cs => if s = c then after? start cs else none

/-- What stands before and after the first occurrence of `sep`. -/
def cutAt (sep : List Char) : List Char → Option (List Char × List Char)
  | [] => (after? sep []).map fun rest => ([], rest)
  | c :: cs =>
    match after? sep (c :: cs) with
    | some rest => some ([], rest)
    | none => (cutAt sep cs).map (prepend c)

/-- Whether `part` occurs in `cs`. -/
def occurs (part cs : List Char) : Bool := (cutAt part cs).isSome

/-! ## Strings -/

def trimmed (s : String) : String := .ofList (trim s.toList)

/-- The words of a string, in order. -/
def wordsOf (s : String) : List String := (words s.toList).map .ofList

/-- Words with one space between each two. -/
def spaced (ws : List String) : String := " ".intercalate ws

def dropReturn (cs : List Char) : List Char :=
  if cs.getLast? = some '\r' then cs.dropLast else cs

/-- The lines among pieces cut at line feeds: a carriage return before the feed goes with it, and
the last piece, which no feed ends, is a line unless it is empty. -/
def linesOfPieces : List (List Char) → List (List Char)
  | [] => []
  | [last] => if last.isEmpty then [] else [last]
  | piece :: pieces => dropReturn piece :: linesOfPieces pieces

def lines (s : String) : List String := (linesOfPieces (fields (· == '\n') s.toList)).map .ofList

/-! ## Lengths -/

theorem after?_length {start cs rest : List Char} (h : after? start cs = some rest) :
    rest.length + start.length = cs.length := by
  induction start generalizing cs with
  | nil => simp [after?] at h; simp [h]
  | cons s start ih =>
    cases cs with
    | nil => simp [after?] at h
    | cons c cs =>
      simp only [after?] at h
      split at h
      · have := ih h; simp; omega
      · simp at h

theorem cutAt_length {sep cs before rest : List Char} (h : cutAt sep cs = some (before, rest)) :
    before.length + sep.length + rest.length = cs.length := by
  induction cs generalizing before with
  | nil =>
    simp only [cutAt, Option.map_eq_some_iff, Prod.mk.injEq] at h
    obtain ⟨r, hr, rfl, rfl⟩ := h
    have := after?_length hr
    simp_all
  | cons c cs ih =>
    simp only [cutAt] at h
    split at h
    · rename_i hr
      simp only [Option.some.injEq, Prod.mk.injEq] at h
      obtain ⟨rfl, rfl⟩ := h
      have := after?_length hr
      simp_all; omega
    · obtain ⟨b, hb, rfl⟩ := map_prepend_eq_some.mp h
      have := ih hb
      simp only [List.length_cons]
      omega

theorem length_dropEndWhile_le (p : Char → Bool) (cs : List Char) :
    (dropEndWhile p cs).length ≤ cs.length := by
  have := (List.dropWhile_suffix (l := cs.reverse) p).length_le
  simpa [dropEndWhile] using this

theorem length_trim_le (cs : List Char) : (trim cs).length ≤ cs.length :=
  Nat.le_trans (length_dropEndWhile_le _ _) (List.dropWhile_suffix _).length_le

theorem cutOnce_length {p : Char → Bool} {cs before rest : List Char}
    (h : cutOnce p cs = some (before, rest)) : before.length + rest.length + 1 = cs.length := by
  have hs := congrArg List.length (List.takeWhile_append_dropWhile (p := (!p ·)) (l := cs))
  simp only [cutOnce] at h
  split at h
  · simp at h
  · rename_i hd
    simp only [Option.some.injEq, Prod.mk.injEq] at h
    obtain ⟨rfl, rfl⟩ := h
    simp [hd] at hs
    omega

/-- No piece is longer than the text it was cut from. -/
theorem length_le_of_mem_fields {p : Char → Bool} {cs f : List Char} (h : f ∈ fields p cs) :
    f.length ≤ cs.length := by
  induction cs generalizing f with
  | nil => simp [fields] at h; simp [h]
  | cons c cs ih =>
    simp only [fields] at h
    split at h
    · rcases List.mem_cons.mp h with rfl | h
      · simp
      · exact Nat.le_succ_of_le (ih h)
    · cases hf : fields p cs with
      | nil => simp [hf] at h
      | cons g gs =>
        simp only [hf, List.modifyHead_cons, List.mem_cons] at h
        rcases h with rfl | h
        · have := ih (f := g) (by simp [hf]); simp; omega
        · exact Nat.le_succ_of_le (ih (by simp [hf, h]))

theorem length_le_of_mem_words {cs w : List Char} (h : w ∈ words cs) : w.length ≤ cs.length :=
  length_le_of_mem_fields (List.mem_filter.mp h).1

end Repartee.Text
