/-
  Repartee.Template.Reader — reading a reply body and a condition.

  The text is read from the left: escapes, tags, and everything else as it stands. What a tag
  holds is read the same way. Weight tags leave no piece; the last one of a level counts, and
  that of the outermost level is the weight of the template.

  A condition is `left operator right => body`. Its guard, the part before the first arrow, is
  cut at the first operator that stands as a word of its own and is not the first word.
-/

import Repartee.Template.Tag.Length

namespace Repartee

namespace Template

open Text

/-- What a backslash makes of the character after it. -/
def escaped? (c : Char) : Option Char :=
  if c = 's' then some ' '
  else if c = 'n' then some '\n'
  else if c = '#' then some '#'
  else if c = '\\' then some '\\'
  else none

/-- The text read so far, last character first, as a piece. -/
def textPiece (run : List Char) : List Piece :=
  if run.isEmpty then [] else [.text (.ofList run.reverse)]

/-- An escape at the beginning of a text, and what follows it. -/
def escape? : List Char → Option (Char × List Char)
  | '\\' :: c :: cs => (escaped? c).map (·, cs)
  | _ => none

theorem escape?_length {cs rest : List Char} {c : Char} (h : escape? cs = some (c, rest)) :
    rest.length < cs.length := by
  simp only [escape?] at h
  split at h
  · simp only [Option.map_eq_some_iff, Prod.mk.injEq] at h
    obtain ⟨_, -, -, rfl⟩ := h
    simp only [List.length_cons]
    omega
  · simp at h

/-- Read the pieces of a text, and its weight if it has one. `run` is the plain text before it and
`whole` the reply that faults quote. -/
def readPieces (whole : String) (run cs : List Char) : Except RuleFault (List Piece × Option Nat) :=
  match cs with
  | [] => .ok (textPiece run, none)
  | c :: rest =>
    match _he : escape? (c :: rest) with
    | some (e, after) => readPieces whole (e :: run) after
    | none =>
      match _ht : tag? (c :: rest) with
      | none => readPieces whole (c :: run) rest
      | some (.weight value, after) =>
        match Decimal.natural Decimal.bound32 value with
        | none => .error (.badWeight (.ofList value) whole)
        | some w => do
          let (pieces, later) ← readPieces whole run after
          .ok (pieces, some (later.getD w))
      | some (.unclosed what, _) => .error (.unclosed what whole)
      | some (.piece p, after) => do
        let (pieces, weight) ← readPieces whole [] after
        .ok (textPiece run ++ p :: pieces, weight)
      | some (.random body, after) => do
        let alts ← (alternatives body).attach.mapM fun ⟨alternative, _hm⟩ =>
          readPieces whole [] alternative
        let (pieces, weight) ← readPieces whole [] after
        .ok (textPiece run ++ .random (alts.map (·.1)) :: pieces, weight)
      | some (.set name value, after) => do
        let (value, _) ← readPieces whole [] value
        let (pieces, weight) ← readPieces whole [] after
        .ok (textPiece run ++ .set name value :: pieces, weight)
      | some (.math op name operand, after) => do
        let (operand, _) ← readPieces whole [] operand
        let (pieces, weight) ← readPieces whole [] after
        .ok (textPiece run ++ .math op name operand :: pieces, weight)
      | some (.call line, after) => do
        let (line, _) ← readPieces whole [] line
        let (pieces, weight) ← readPieces whole [] after
        .ok (textPiece run ++ .call line :: pieces, weight)
      | some (.redirect target, after) => do
        let (target, _) ← readPieces whole [] target
        let (pieces, weight) ← readPieces whole [] after
        .ok (textPiece run ++ .redirect target :: pieces, weight)
      | some (.recase r body, after) => do
        let (body, _) ← readPieces whole [] body
        let (pieces, weight) ← readPieces whole [] after
        .ok (textPiece run ++ .recase r body :: pieces, weight)
termination_by cs.length
decreasing_by
  all_goals first
    | exact escape?_length _he
    | exact (shorter_tag? _ht).1
    | exact (shorter_tag? _ht).2
    | exact Nat.lt_of_le_of_lt (length_le_of_mem_alternatives _hm) (shorter_tag? _ht).2
    | simp

def read (source : String) : Except RuleFault Template := do
  let (pieces, weight) ← readPieces source [] source.toList
  .ok { source, pieces, weight := weight.getD 0 }

end Template

namespace Comparison

def ofText? (s : String) : Option Comparison :=
  if s = "==" ∨ s = "eq" then some .eq
  else if s = "!=" ∨ s = "ne" ∨ s = "<>" then some .ne
  else if s = "<" then some .lt
  else if s = "<=" then some .le
  else if s = ">" then some .gt
  else if s = ">=" then some .ge
  else none

end Comparison

namespace Condition

open Text Unicode

/-- An operator standing as a word at the beginning of a text, and its right side, which must be
on one line. -/
def operator? (cs : List Char) : Option (Comparison × List Char) := do
  let cs := trimStart cs
  let comparison ← Comparison.ofText? (.ofList (cs.takeWhile (!isBlank ·)))
  let right := trimStart (cs.dropWhile (!isBlank ·))
  if right.contains '\n' then none else some (comparison, right)

/-- Cut a guard at its first operator; `before` is what has been passed, last character first.
What stands before the operator must be on one line and not empty. -/
def cutGuard (before : List Char) : List Char → Option (List Char × Comparison × List Char)
  | [] => none
  | c :: cs =>
    let here :=
      if isBlank c && !before.isEmpty && !before.contains '\n' then operator? (c :: cs) else none
    match here with
    | some (comparison, right) => some (before.reverse, comparison, right)
    | none => cutGuard (c :: before) cs

def read (source : String) : Except RuleFault Condition :=
  match cutAt ['=', '>'] source.toList with
  | none => .error (.malformedCondition source)
  | some (guard, body) =>
    match cutGuard [] (trim guard) with
    | none => .error (.malformedCondition source)
    | some (left, comparison, right) => do
      let left ← Template.read (.ofList (trim left))
      let right ← Template.read (.ofList (trim right))
      let body ← Template.read (.ofList (trim body))
      .ok { source, left, comparison, right, body }

end Condition

end Repartee
