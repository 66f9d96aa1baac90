/-
  Repartee.Proofs.Joined.Lines — the lines of two texts that are joined by a line feed.

  The joined text has the lines of the first text and then those of the second. The last line of
  the first may lose a carriage return, or an empty line may come in between; neither is seen by
  a reader that is not in an object.

  Proved:
  - The joined text is read by reading one text and then the other (`readLines_append`,
    `readLines_ended`).
  - A command that waits at the end of the first text can as well be carried out there, if the
    second does not continue it (`readLines_flush`).
-/

import Repartee.Proofs.Cutting
import Repartee.Proofs.Orders
import Repartee.Proofs.Results

namespace Repartee

namespace Text

/-! ## Pieces -/

variable {p : Char → Bool} {c : Char}

theorem linesOfPieces_append {pieces later : List (List Char)} (h : later ≠ []) :
    linesOfPieces (pieces ++ later) = pieces.map dropReturn ++ linesOfPieces later := by
  induction pieces with
  | nil => rfl
  | cons piece pieces ih =>
    obtain ⟨next, rest, hnext⟩ := List.exists_cons_of_ne_nil (List.append_ne_nil_of_right_ne_nil pieces h)
    rw [List.cons_append, List.map_cons, List.cons_append, ← ih, hnext]
    rfl

/-! ## Carriage returns -/

theorem dropReturn_append_return (cs : List Char) : dropReturn (cs ++ ['\r']) = cs := by
  simp [dropReturn]

theorem dropReturn_cases (cs : List Char) : dropReturn cs = cs ∨ ∃ ds, cs = ds ++ ['\r'] ∧ dropReturn cs = ds := by
  by_cases h : cs.getLast? = some '\r'
  · obtain ⟨ds, rfl⟩ := List.getLast?_eq_some_iff.mp h
    exact .inr ⟨ds, rfl, dropReturn_append_return ds⟩
  · exact .inl (if_neg h)

theorem trimStart_append_return (cs : List Char) :
    trimStart (cs ++ ['\r']) = trimStart cs ++ ['\r'] ∨ trimStart (cs ++ ['\r']) = [] ∧ trimStart cs = [] := by
  have hblank : Unicode.isBlank '\r' = true := by decide
  rw [trimStart, trimStart, List.dropWhile_append]
  by_cases h : (cs.dropWhile Unicode.isBlank).isEmpty = true
  · right
    rw [if_pos h, List.dropWhile_cons_of_pos hblank]
    exact ⟨rfl, List.isEmpty_iff.mp h⟩
  · left
    rw [if_neg h]

theorem trim_dropReturn (cs : List Char) : trim (dropReturn cs) = trim cs := by
  rcases dropReturn_cases cs with h | ⟨ds, rfl, h⟩
  · rw [h]
  · rw [h, trim, trim]
    rcases trimStart_append_return ds with hstart | ⟨hstart, hnil⟩
    · have hblank : Unicode.isBlank '\r' = true := by decide
      rw [hstart, dropEndWhile, dropEndWhile, List.reverse_append, List.reverse_singleton, List.singleton_append,
        List.dropWhile_cons_of_pos hblank]
    · rw [hstart, hnil]

theorem after?_isSome_iff {start cs : List Char} : (after? start cs).isSome = true ↔ start <+: cs := by
  induction start generalizing cs with
  | nil => simp [after?]
  | cons s start ih =>
    cases cs with
    | nil => simp [after?]
    | cons c cs =>
      rw [after?, List.cons_prefix_cons]
      by_cases h : s = c
      · rw [if_pos h, ih]
        exact ⟨fun hp => ⟨h, hp⟩, fun hp => hp.2⟩
      · rw [if_neg h]
        constructor
        · intro hnone
          cases hnone
        · intro hp
          exact absurd hp.1 h

end Text

namespace Script

open Text

theorem closesObject_dropReturn {raw : List Char} (h : Reader.closesObject raw = true) :
    Reader.closesObject (dropReturn raw) = true := by
  rcases dropReturn_cases raw with hdrop | ⟨cs, rfl, hdrop⟩
  · rwa [hdrop]
  · rw [hdrop]
    rw [Reader.closesObject, Reader.startsWith, after?_isSome_iff] at h ⊢
    rcases trimStart_append_return cs with hstart | ⟨hstart, -⟩
    · rw [hstart, List.prefix_concat_iff] at h
      rcases h with h | h
      · have hmark : "< object".toList.getLast? ≠ some '\r' := by decide
        exact absurd (h ▸ List.getLast?_concat) hmark
      · exact h
    · have hmark : "< object".toList ≠ [] := by decide
      exact absurd (List.prefix_nil.mp (hstart ▸ h)) hmark

namespace Reader

variable {r r' : Reader} {line : Nat}

/-! ## Reading on -/

theorem readLines_append (r : Reader) (line : Nat) (raws later : List (List Char)) :
    r.readLines line (raws ++ later) = r.readLines line raws >>= fun r => r.readLines (line + raws.length) later := by
  induction raws generalizing r line with
  | nil => rfl
  | cons raw raws ih =>
    rw [List.cons_append, readLines, readLines]
    cases r.physicalLine line raw with
    | error e => rfl
    | ok r' =>
      change r'.readLines (line + 1) (raws ++ later) = _
      rw [ih, List.length_cons, Nat.add_assoc, Nat.add_comm 1]
      rfl

/-- Without a carriage return at its end a line is read alike, if it does not become part of an object. -/
theorem physicalLine_dropReturn {raw : List Char} (h : r.physicalLine line raw = .ok r')
    (hmode : ∀ o, r'.mode ≠ .object o) : r.physicalLine line (dropReturn raw) = .ok r' := by
  rw [physicalLine] at h ⊢
  cases hr : r.mode with
  | object o =>
    simp only [hr] at h ⊢
    by_cases hcloses : closesObject raw = true
    · rw [objectLine, if_pos hcloses] at h
      rw [objectLine, if_pos (closesObject_dropReturn hcloses)]
      exact h
    · rw [objectLine, if_neg hcloses] at h
      cases h
      exact absurd rfl (hmode _)
  | comment =>
    simp only [hr] at h ⊢
    rwa [trim_dropReturn]
  | rules =>
    simp only [hr] at h ⊢
    rwa [trim_dropReturn]

theorem physicalLine_nil (hmode : ∀ o, r.mode ≠ .object o) : r.physicalLine line [] = .ok r := by
  rw [physicalLine]
  cases hr : r.mode with
  | object o => exact absurd hr (hmode o)
  | comment => rfl
  | rules => rfl

/-- The lines of a text, all of them ended by a line feed. -/
theorem readLines_ended {pieces : List (List Char)} (hpieces : pieces ≠ [])
    (h : r.readLines line (linesOfPieces pieces) = .ok r') (hmode : ∀ o, r'.mode ≠ .object o) :
    r.readLines line (pieces.map dropReturn) = .ok r' := by
  obtain ⟨start, last, rfl⟩ : ∃ start last, pieces = start ++ [last] :=
    ⟨_, _, (List.dropLast_concat_getLast hpieces).symm⟩
  rw [linesOfPieces_append (List.cons_ne_nil last []), readLines_append, bind_eq_ok] at h
  obtain ⟨middle, hstart, hlast⟩ := h
  rw [List.map_append, readLines_append, hstart]
  change middle.readLines _ [dropReturn last] = .ok r'
  cases hl : last.isEmpty with
  | true =>
    rw [linesOfPieces, hl] at hlast
    cases hlast
    rw [List.isEmpty_iff.mp hl]
    exact bind_eq_ok.mpr ⟨_, physicalLine_nil hmode, rfl⟩
  | false =>
    rw [linesOfPieces, hl] at hlast
    obtain ⟨end', hphysical, hend⟩ := bind_eq_ok.mp hlast
    cases hend
    exact bind_eq_ok.mpr ⟨_, physicalLine_dropReturn hphysical hmode, rfl⟩

/-! ## The command that waits -/

/-- What waits is not a block mark, which acts at once. -/
def Waits (r : Reader) : Prop := ∀ c ∈ r.pending, c.mark ≠ '>'

theorem waits_flush (h : r.flush = .ok r') : r'.pending = none := by
  rw [flush] at h
  cases hp : r.pending with
  | none =>
    simp only [hp] at h
    cases h
    exact hp
  | some c =>
    simp only [hp] at h
    exact act_pending h

theorem waits_command {c : Command} (h : r.command c = .ok r') : r'.Waits := by
  obtain ⟨flushed, hflush, h⟩ := bind_eq_ok.mp h
  have hnone := waits_flush hflush
  by_cases hblock : c.mark = '>' ∨ c.mark = '<'
  · rw [if_pos hblock] at h
    simp [Waits, act_pending h, hnone]
  · rw [if_neg hblock] at h
    cases h
    simpa [Waits] using fun hmark => hblock (.inl hmark)

theorem waits_continueWith {body : List Char} (hr : r.Waits) (h : r.continueWith body line = .ok r') : r'.Waits := by
  rw [continueWith] at h
  cases hp : r.pending with
  | none =>
    simp only [hp] at h
    rw [(complain_eq_ok.mp h).2]
    exact hr
  | some c =>
    simp only [hp] at h
    cases h
    simpa [Waits] using hr c hp

theorem waits_physicalLine {raw : List Char} (hr : r.Waits) (h : r.physicalLine line raw = .ok r') : r'.Waits := by
  rw [physicalLine] at h
  cases hmode : r.mode with
  | object o =>
    simp only [hmode, objectLine] at h
    split at h <;> cases h <;> exact hr
  | comment =>
    simp only [hmode] at h
    split at h <;> cases h <;> exact hr
  | rules =>
    simp only [hmode, ruleLine] at h
    split at h
    · cases h
      exact hr
    · split at h
      · cases h
        exact hr
      · split at h
        · cases h
          exact hr
        · split at h
          · exact waits_continueWith hr h
          · exact waits_command h

theorem waits_readLines {raws : List (List Char)} (hr : r.Waits) (h : r.readLines line raws = .ok r') : r'.Waits := by
  induction raws generalizing r line with
  | nil =>
    cases h
    exact hr
  | cons raw raws ih =>
    obtain ⟨next, hnext, h⟩ := bind_eq_ok.mp h
    exact ih (waits_physicalLine hr hnext) h

/-! ## The first command -/

/-- The mark of the first line that is a command or a continuation; `inComment` tells whether the lines
begin inside a comment. -/
def firstMark? (inComment : Bool) : List (List Char) → Option Char
  | [] => none
  | raw :: raws =>
    let cs := trim raw
    if inComment then firstMark? (!endsComment cs) raws
    else if startsWith "/*" cs then firstMark? (!endsComment cs) raws
    else
      match cs with
      | [] => firstMark? false raws
      | mark :: _ => if startsWith "//" cs then firstMark? false raws else some mark

def inComment (mode : Mode) : Bool := mode = .comment

/-- Outside objects, a line changes at most whether a comment is open, or it is a command, or else a
continuation. -/
theorem line_cases {mode : Mode} (hmode : ∀ o, mode ≠ .object o) (line : Nat) (raw : List Char) :
    (∃ m, (∀ o, m ≠ .object o) ∧
      (∀ r : Reader, r.mode = mode → r.physicalLine line raw = .ok (r.turnTo m r.pending)) ∧
      ∀ raws, firstMark? (inComment mode) (raw :: raws) = firstMark? (inComment m) raws) ∨
    (∃ c, ∀ r : Reader, r.mode = mode → r.physicalLine line raw = r.command c) ∨
    ∀ raws, firstMark? (inComment mode) (raw :: raws) = some '^' := by
  cases mode with
  | object o => exact absurd rfl (hmode o)
  | comment =>
    left
    by_cases hends : endsComment (trim raw) = true
    · refine ⟨.rules, nofun, fun r hr => ?_, fun raws => ?_⟩
      · simp only [physicalLine, hr, if_pos hends]
        rfl
      · simp [firstMark?, inComment, hends]
    · refine ⟨.comment, nofun, fun r hr => ?_, fun raws => ?_⟩
      · simp only [physicalLine, hr, if_neg hends, turnTo]
        rw [← hr]
      · simp [firstMark?, inComment, hends]
  | rules =>
    by_cases hopens : startsWith "/*" (trim raw) = true
    · left
      refine ⟨if endsComment (trim raw) then .rules else .comment, ?_, fun r hr => ?_, fun raws => ?_⟩
      · split <;> nofun
      · simp only [physicalLine, hr, ruleLine, if_pos hopens]
        rfl
      · cases hends : endsComment (trim raw) <;> simp [firstMark?, inComment, hends, hopens]
    · have hquiet : ∀ r : Reader, r.mode = .rules → r.turnTo .rules r.pending = r := fun r hr => by rw [turnTo, ← hr]
      cases hcs : trim raw with
      | nil =>
        left
        refine ⟨.rules, nofun, fun r hr => ?_, fun raws => ?_⟩
        · rw [hquiet r hr]
          simp only [physicalLine, hr, hcs, ruleLine]
          rfl
        · rw [hcs] at hopens
          simp [firstMark?, inComment, hcs, hopens]
      | cons mark rest =>
        rw [hcs] at hopens
        by_cases hslashes : startsWith "//" (mark :: rest) = true
        · left
          refine ⟨.rules, nofun, fun r hr => ?_, fun raws => ?_⟩
          · rw [hquiet r hr]
            simp only [physicalLine, hr, hcs, ruleLine, if_neg hopens, if_pos hslashes]
          · simp [firstMark?, inComment, hcs, hopens, hslashes]
        · right
          by_cases hmark : mark = '^'
          · right
            intro raws
            subst hmark
            simp [firstMark?, inComment, hcs, hopens, hslashes]
          · left
            refine ⟨⟨mark, trim rest, line⟩, fun r hr => ?_⟩
            simp only [physicalLine, hr, hcs, ruleLine, if_neg hopens, if_neg hslashes, if_neg hmark]

theorem flush_turnTo (hr : r.Waits) (h : r.flush = .ok r') (m : Mode) :
    (r.turnTo m r.pending).flush = .ok (r'.turnTo m none) := by
  have hnone := waits_flush h
  rw [flush] at h ⊢
  have hpending : (r.turnTo m r.pending).pending = r.pending := rfl
  rw [hpending]
  cases hp : r.pending with
  | none =>
    simp only [hp] at h
    cases h
    rfl
  | some c =>
    simp only [hp] at h
    have hturn := act_turnTo ({ r with pending := none } : Reader) m none (hr c hp)
    rw [h] at hturn
    exact hturn

theorem flush_idle (h : r.pending = none) : r.flush = .ok r := by
  rw [flush, h]

theorem mode_flush (hr : r.Waits) (h : r.flush = .ok r') : r'.mode = r.mode := by
  have hturn := flush_turnTo hr h r.mode
  change r.flush = _ at hturn
  rw [h] at hturn
  rw [Except.ok.inj hturn]
  rfl

/-- The waiting command can be carried out before reading on, if it is not continued. -/
theorem readLines_flush {raws : List (List Char)} (hr : r.Waits) (h : r.flush = .ok r')
    (hmode : ∀ o, r.mode ≠ .object o) (hfirst : firstMark? (inComment r.mode) raws ≠ some '^') :
    (r.readLines line raws >>= finish) = (r'.readLines line raws >>= finish) := by
  have hidle := flush_idle (waits_flush h)
  have hmode' := mode_flush hr h
  induction raws generalizing r r' line with
  | nil =>
    change r.finish = r'.finish
    rw [finish, finish, h, hidle]
  | cons raw raws ih =>
    rw [readLines, readLines]
    rcases line_cases hmode line raw with ⟨m, hm, hline, hmark⟩ | ⟨c, hline⟩ | hmark
    · rw [hline r rfl, hline r' hmode', waits_flush h]
      rw [hmark] at hfirst
      have hwaits : (r.turnTo m r.pending).Waits := hr
      have hflush := flush_turnTo hr h m
      exact ih hwaits hflush hm hfirst (flush_idle rfl) rfl
    · rw [hline r rfl, hline r' hmode', command, command, h, hidle]
    · exact absurd (hmark raws) hfirst

end Reader

end Script

end Repartee
