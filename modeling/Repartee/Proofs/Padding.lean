/-
  Repartee.Proofs.Padding — comments and blank lines.

  Between the lines of a text, where neither an object nor a block comment is open, lines may be added that say
  nothing: blank ones, `//` lines, and block comments. What is read stays the same but for the numbers of
  lines, which move by the lines that were added before them. It does not matter what stands there: a
  command and its continuation are no less together for the lines between them.

  Proved:
  - Lines that say nothing make no items, and the lines after them are part of what those before are
    (`items_of_quiet`).
  - A padded text makes the items of the text, under other numbers (`items_padded`).
  - The line feed at the end of a text may be left out (`read_lineFeed`).
  - A padded text is read like the text, with its results and its faults under other numbers (`read_padded`).
-/

import Repartee.Proofs.Renumbering

namespace Repartee.Script

open Text

/-! ## Lines that say nothing -/

/-- A block comment begins with a line that begins with `/*`. It ends with the first line, that one included, that has
a `*/`, so `/*/` is a whole one; what else stands on its lines does not matter. -/
def IsComment (raws : List (List Char)) : Prop :=
  ∃ inner last, raws = inner ++ [last] ∧ (∀ raw ∈ raws.head?, "/*".toList <+: trim raw) ∧
    (∀ raw ∈ inner, ¬ "*/".toList <:+: trim raw) ∧ "*/".toList <:+: trim last

/-- Blank lines, lines that begin with `//`, and block comments. -/
inductive Quiet : List (List Char) → Prop
  | nil : Quiet []
  | blank {raw : List Char} {raws : List (List Char)} : trim raw = [] → Quiet raws → Quiet (raw :: raws)
  | slashes {raw : List Char} {raws : List (List Char)} : "//".toList <+: trim raw → Quiet raws → Quiet (raw :: raws)
  | comment {comment raws : List (List Char)} : IsComment comment → Quiet raws → Quiet (comment ++ raws)

namespace Reader

variable {m : Mode} {line : Nat} {raw : List Char} {raws : List (List Char)}

theorem endsComment_iff {cs : List Char} : endsComment cs = true ↔ "*/".toList <:+: cs := by
  rw [endsComment, occurs, Option.isSome_iff_ne_none, ne_eq, cutAt_eq_none_iff, not_not]
  rfl

theorem startsWith_iff {start : String} {cs : List Char} : startsWith start cs = true ↔ start.toList <+: cs := after?_isSome_iff

theorem lineItems_blank (h : trim raw = []) (line : Nat) : lineItems .rules line raw = ([], .rules) := by
  simp [lineItems, h, ruleLine?, opensComment, startsWith, after?]

theorem lineItems_slashes (h : "//".toList <+: trim raw) (line : Nat) : lineItems .rules line raw = ([], .rules) := by
  obtain ⟨rest, hrest⟩ := h
  simp [lineItems, ← hrest, ruleLine?, opensComment, startsWith, after?]

theorem lineItems_comment (h : "/*".toList <+: trim raw) (line : Nat) :
    lineItems .rules line raw = ([], if endsComment (trim raw) then .rules else .comment) := by
  have hopens := startsWith_iff.mpr h
  have hnone : ruleLine? line (trim raw) = none := by
    rw [ruleLine?.eq_def, hopens, Bool.true_or, if_pos rfl]
  simp only [lineItems, hnone, opensComment, hopens, Bool.true_and]
  cases endsComment (trim raw) <;> rfl

/-- The lines of a comment make no items, and it is open up to its last line. -/
theorem items_of_inner (h : ∀ raw ∈ raws, ¬ "*/".toList <:+: trim raw) (line : Nat) :
    itemsIn .comment line raws = [] ∧ modeAfter .comment line raws = .comment := by
  induction raws generalizing line with
  | nil => exact ⟨rfl, rfl⟩
  | cons raw raws ih =>
    obtain ⟨hraw, hrest⟩ := List.forall_mem_cons.mp h
    have hends : endsComment (trim raw) = false := by
      rw [← Bool.not_eq_true, endsComment_iff]
      exact hraw
    have hitems : lineItems .comment line raw = ([], .comment) := by simp [lineItems, hends]
    rw [itemsIn, modeAfter, hitems]
    exact ih hrest (line + 1)

theorem items_of_comment (h : IsComment raws) (line : Nat) :
    itemsIn .rules line raws = [] ∧ modeAfter .rules line raws = .rules := by
  obtain ⟨inner, last, rfl, hopens, hinner, hlast⟩ := h
  have hends := endsComment_iff.mpr hlast
  cases inner with
  | nil =>
    have hitems := lineItems_comment (hopens last rfl) line
    rw [if_pos hends] at hitems
    simp [itemsIn, modeAfter, hitems]
  | cons first inner =>
    obtain ⟨hfirst, hrest⟩ := List.forall_mem_cons.mp hinner
    have hitems := lineItems_comment (hopens first rfl) line
    rw [if_neg (by rw [endsComment_iff]; exact hfirst)] at hitems
    obtain ⟨hnone, hmode⟩ := items_of_inner hrest (line + 1)
    rw [List.cons_append, itemsIn, modeAfter, hitems, itemsIn_append, modeAfter_append, hnone, hmode]
    simp [itemsIn, modeAfter, lineItems, hends]

/-- Lines that say nothing make no items and leave nothing open. -/
theorem items_of_quiet (h : Quiet raws) (line : Nat) :
    itemsIn .rules line raws = [] ∧ modeAfter .rules line raws = .rules := by
  induction h generalizing line with
  | nil => exact ⟨rfl, rfl⟩
  | blank hblank _ ih =>
    rw [itemsIn, modeAfter, lineItems_blank hblank]
    exact ih (line + 1)
  | slashes hslashes _ ih =>
    rw [itemsIn, modeAfter, lineItems_slashes hslashes]
    exact ih (line + 1)
  | comment hcomment _ ih =>
    obtain ⟨hitems, hmode⟩ := items_of_comment hcomment line
    rw [itemsIn_append, modeAfter_append, hitems, hmode]
    exact ih _

end Reader

/-! ## Padded lines -/

/-- Lines with others added: `added n` before the line of number `n`, and after the last line those that would stand
before the next one. -/
def padded (added : Nat → List (List Char)) (line : Nat) : List (List Char) → List (List Char)
  | [] => added line
  | raw :: raws => added line ++ raw :: padded added (line + 1) raws

/-- The number of a line once lines have been added. -/
def moved (added : Nat → List (List Char)) : Nat → Nat
  | 0 => 0
  | line + 1 => moved added line + (added (line + 1)).length + 1

/-- Lines are added where no object and no comment is open, and say nothing. -/
def AddedQuietly (added : Nat → List (List Char)) (raws : List (List Char)) : Prop :=
  ∀ n ≤ raws.length, added (n + 1) ≠ [] → Reader.modeAfter .rules 1 (raws.take n) = .rules ∧ Quiet (added (n + 1))

namespace Reader

variable {added : Nat → List (List Char)} {m : Mode} {raws : List (List Char)}

theorem items_of_added {n : Nat} (h : added (n + 1) ≠ [] → m = .rules ∧ Quiet (added (n + 1))) (line : Nat) :
    itemsIn (m.renumber (moved added)) line (added (n + 1)) = [] ∧
      modeAfter (m.renumber (moved added)) line (added (n + 1)) = m.renumber (moved added) := by
  by_cases hnone : added (n + 1) = []
  · rw [hnone]
    exact ⟨rfl, rfl⟩
  · obtain ⟨rfl, hquiet⟩ := h hnone
    exact items_of_quiet hquiet line

/-- Padded lines make the items of the lines, under other numbers. -/
theorem items_padded {n : Nat} (h : ∀ k ≤ raws.length, added (n + k + 1) ≠ [] →
      modeAfter m (n + 1) (raws.take k) = .rules ∧ Quiet (added (n + k + 1))) :
    items (m.renumber (moved added)) (moved added n + 1) (padded added (n + 1) raws) =
      (items m (n + 1) raws).map (·.renumber (moved added)) := by
  induction raws generalizing m n with
  | nil =>
    have hhere : added (n + 1) ≠ [] → m = .rules ∧ Quiet (added (n + 1)) := h 0 (Nat.zero_le _)
    obtain ⟨hnone, hmode⟩ := items_of_added hhere (moved added n + 1)
    rw [padded, items_eq, hnone, hmode, lastItems_renumber]
    rfl
  | cons raw raws ih =>
    have hhere : added (n + 1) ≠ [] → m = .rules ∧ Quiet (added (n + 1)) := h 0 (Nat.zero_le _)
    obtain ⟨hnone, hmode⟩ := items_of_added hhere (moved added n + 1)
    have hline : moved added n + 1 + (added (n + 1)).length = moved added (n + 1) := by
      rw [moved]
      omega
    have hlater : ∀ k ≤ raws.length, added (n + 1 + k + 1) ≠ [] →
        modeAfter (lineItems m (n + 1) raw).2 (n + 1 + 1) (raws.take k) = .rules ∧ Quiet (added (n + 1 + k + 1)) := by
      intro k hk
      rw [Nat.add_right_comm n 1 k]
      exact h (k + 1) (Nat.succ_le_succ hk)
    rw [padded, items_append, hnone, hmode, hline, List.nil_append, items, items, lineItems_renumber, List.map_append]
    rw [ih hlater]

end Reader

/-- A line is found under its other number. -/
theorem exists_getElem?_padded {added : Nat → List (List Char)} {raws : List (List Char)} {i n : Nat} {raw : List Char}
    (h : raws[n]? = some raw) :
    ∃ k, moved added (i + n + 1) = moved added i + k + 1 ∧ (padded added (i + 1) raws)[k]? = some raw := by
  induction raws generalizing i n with
  | nil => cases h
  | cons first raws ih =>
    rw [padded]
    cases n with
    | zero =>
      cases h
      exact ⟨(added (i + 1)).length, rfl, by simp⟩
    | succ n =>
      obtain ⟨k, hk, hfound⟩ := ih (i := i + 1) h
      refine ⟨(added (i + 1)).length + (k + 1), ?_, ?_⟩
      · rw [Nat.add_right_comm i 1 n] at hk
        rw [← Nat.add_assoc i n 1, hk, moved]
        omega
      · rw [List.getElem?_append_right (Nat.le_add_right _ _), Nat.add_sub_cancel_left]
        exact hfound

/-! ## The last line feed -/

namespace Reader

variable {w : Option (Command × List (List Char))} {r : Reader}

theorem closesObject_of_dropReturn {raw : List Char} (h : closesObject (dropReturn raw) = true) : closesObject raw = true := by
  rcases dropReturn_cases raw with hdrop | ⟨cs, rfl, hdrop⟩
  · rwa [hdrop] at h
  · rw [hdrop] at h
    rw [closesObject, startsWith_iff] at h ⊢
    rcases trimStart_append_return cs with hstart | ⟨-, hnil⟩
    · rw [hstart]
      exact h.trans (List.prefix_append _ _)
    · rw [hnil, List.prefix_nil] at h
      cases h

theorem closesObject_dropReturn_eq (raw : List Char) : closesObject (dropReturn raw) = closesObject raw :=
  Bool.eq_iff_iff.mpr ⟨closesObject_of_dropReturn, closesObject_dropReturn⟩

/-- An object is left open under the same name and on the same line, whatever its code is. -/
def SameEnd (is js : List Item) : Prop :=
  is = js ∨ ∃ o o' : Object, is = [.unclosed o] ∧ js = [.unclosed o'] ∧ o.name = o'.name ∧ o.line = o'.line

/-- Outside objects only the trimmed line counts. -/
theorem items_dropReturn (hm : ∀ o, m ≠ .object o) (line : Nat) (last : List Char) :
    items m line [dropReturn last] = items m line [last] := by
  cases m with
  | object o => exact absurd rfl (hm o)
  | comment => simp only [items, lineItems, trim_dropReturn]
  | rules => simp only [items, lineItems, trim_dropReturn]

theorem items_empty (hm : ∀ o, m ≠ .object o) (line : Nat) : items m line [[]] = items m line [] := by
  cases m with
  | object o => exact absurd rfl (hm o)
  | comment => rfl
  | rules => rfl

/-- Whether a line feed ends the last line shows at most in the code of an object that is left open. -/
theorem sameEnd_last (m : Mode) (line : Nat) (last : List Char) :
    SameEnd (items m line [dropReturn last]) (items m line (linesOfPieces [last])) := by
  have hlines : linesOfPieces [last] = if last.isEmpty then [] else [last] := rfl
  have hnil : last.isEmpty = true → last = [] := List.isEmpty_iff.mp
  rw [hlines]
  by_cases hm : ∀ o, m ≠ .object o
  · left
    rw [items_dropReturn hm]
    split
    · next hempty => rw [hnil hempty, items_empty hm]
    · rfl
  · obtain ⟨o, rfl⟩ : ∃ o, m = .object o := by simpa using hm
    by_cases hcloses : closesObject last = true
    · have hne : ¬ last.isEmpty = true := by
        intro hempty
        rw [hnil hempty] at hcloses
        cases hcloses
      rw [if_neg hne]
      left
      simp only [items, lineItems, closesObject_dropReturn_eq, hcloses, if_true]
    · right
      have hopen : ¬ closesObject (dropReturn last) = true := by rwa [closesObject_dropReturn_eq]
      split
      · refine ⟨{ o with code := o.code ++ .ofList (dropReturn last ++ ['\n']) }, o, ?_, rfl, rfl, rfl⟩
        simp only [items, lineItems, if_neg hopen, lastItems, List.nil_append]
      · refine ⟨{ o with code := o.code ++ .ofList (dropReturn last ++ ['\n']) },
          { o with code := o.code ++ .ofList (last ++ ['\n']) }, ?_, ?_, rfl, rfl⟩
        · simp only [items, lineItems, if_neg hopen, lastItems, List.nil_append]
        · simp only [items, lineItems, if_neg hcloses, lastItems, List.nil_append]

theorem statements_unclosed (w : Option (Command × List (List Char))) (is : List Item) (o : Object) :
    statements w (is ++ [.unclosed o]) = statements w is ++ [.unclosed o] := by
  induction is generalizing w with
  | nil => simp [statements, heard, waiting]
  | cons i is ih => rw [List.cons_append, statements, ih, statements, List.append_assoc]

/-- The code of an object that is left open is not looked at. -/
theorem foldlM_sameEnd {is js : List Item} (h : SameEnd is js) (before : List Item) (r : Reader) :
    (statements none (before ++ is)).foldlM carry r = (statements none (before ++ js)).foldlM carry r := by
  obtain rfl | ⟨o, o', rfl, rfl, hname, hline⟩ := h
  · rfl
  · have hcarry : ∀ q : Reader, q.carry (.unclosed o) = q.carry (.unclosed o') := by
      intro q
      rw [carry, carry, hname, hline]
    simp only [statements_unclosed, List.foldlM_append, List.foldlM_cons, List.foldlM_nil, hcarry]

end Reader

/-- Whether a line feed ends the last line makes no difference. -/
theorem read_lineFeed (strict : Bool) (origin text : String) : read strict origin (text ++ "\n") = read strict origin text := by
  obtain ⟨start, last, hpieces⟩ : ∃ start last, fields (· == '\n') text.toList = start ++ [last] :=
    ⟨_, _, (List.dropLast_concat_getLast (fields_ne_nil _ _)).symm⟩
  have hold : linesIn text = start.map dropReturn ++ linesOfPieces [last] := by
    rw [linesIn, hpieces, linesOfPieces_append (List.cons_ne_nil last [])]
  have hnew : linesIn (text ++ "\n") = start.map dropReturn ++ [dropReturn last] := by
    have hfeed : (text ++ "\n").toList = text.toList ++ '\n' :: [] := by simp
    rw [linesIn, hfeed, fields_append _ _ (by decide), hpieces, fields, linesOfPieces_append (List.cons_ne_nil [] []),
      List.map_append, linesOfPieces, List.isEmpty_nil, if_pos rfl, List.append_nil, List.map_singleton]
  rw [read_eq, read_eq, statementsOf, statementsOf, itemsOf_eq, itemsOf_eq, hold, hnew, Reader.items_append,
    Reader.items_append, Reader.foldlM_sameEnd (Reader.sameEnd_last _ _ last)]

/-! ## Padded texts -/

/-- A text to which comments and blank lines are added is read as before, up to the numbers of lines: the same script or
the same fault. What is added after a last line that no line feed ends comes after the line feed. -/
theorem read_padded {added : Nat → List (List Char)} {raws : List (List Char)} {old new : String}
    (hold : raws = linesIn old ∨ raws = linesIn (old ++ "\n")) (hnew : linesIn new = padded added 1 raws)
    (hadded : AddedQuietly added raws) (strict : Bool) (origin : String) :
    read strict origin new = shifted (moved added) (renumber (moved added)) (read strict origin old) ∧
      ∀ n raw, raws[n]? = some raw → ∃ k, moved added (n + 1) = k + 1 ∧ (linesIn new)[k]? = some raw := by
  have hplaces : ∀ k ≤ raws.length, added (0 + k + 1) ≠ [] →
      Reader.modeAfter .rules (0 + 1) (raws.take k) = .rules ∧ Quiet (added (0 + k + 1)) := by
    intro k hk
    rw [Nat.zero_add]
    exact hadded k hk
  have hitems := Reader.items_padded (m := .rules) hplaces
  have hread : ∀ old, raws = linesIn old →
      read strict origin new = shifted (moved added) (renumber (moved added)) (read strict origin old) := by
    intro old hold
    apply read_renumber rfl
    rw [itemsOf_eq, itemsOf_eq, hnew, ← hold]
    exact hitems
  constructor
  · rcases hold with hold | hold
    · exact hread old hold
    · rw [hread _ hold, read_lineFeed]
  · intro n raw hraw
    obtain ⟨k, hk, hfound⟩ : ∃ k, moved added (0 + n + 1) = moved added 0 + k + 1 ∧ (padded added (0 + 1) raws)[k]? = some raw :=
      exists_getElem?_padded hraw
    rw [Nat.zero_add, moved, Nat.zero_add] at hk
    exact ⟨k, hk, by rw [hnew]; exact hfound⟩

/-- Comments in a begin block and before a continuation, and after the last line. -/
theorem read_padded_continued :
    let old := "> begin\n+ x\n< begin\n+ hello\n- Hi\n^ there\n> object o js\n+ code\n< object"
    let new := "> begin\n/* a\n+ b */\n+ x\n< begin\n+ hello\n- Hi\n\n  // c\n^ there\n> object o js\n+ code\n< object\n/* d */"
    let added : Nat → List (List Char) := fun n =>
      if n = 2 then ["/* a".toList, "+ b */".toList] else if n = 6 then [[], "  // c".toList] else
        if n = 10 then ["/* d */".toList] else []
    (linesIn new = padded added 1 (linesIn old) ∧ AddedQuietly added (linesIn old)) ∧
      read false "x" new = shifted (moved added) (renumber (moved added)) (read false "x" old) ∧
      ∃ script, read false "x" old = .ok script ∧ script.objects.map (·.line) = [7] ∧
        (script.renumber (moved added)).objects.map (·.line) = [11] := by
  intro old new added
  have hnew : linesIn new = padded added 1 (linesIn old) := by decide +kernel
  have hnone : ∀ k, k ≠ 2 → k ≠ 6 → k ≠ 10 → added k = [] := fun k h h' h'' =>
    (if_neg h).trans ((if_neg h').trans (if_neg h''))
  have hadded : AddedQuietly added (linesIn old) := by
    intro n _ hne
    have hplace : n = 1 ∨ n = 5 ∨ n = 9 := by
      by_contra hnot
      exact hne (hnone (n + 1) (by omega) (by omega) (by omega))
    rcases hplace with rfl | rfl | rfl
    · refine ⟨by decide +kernel, .comment ⟨["/* a".toList], "+ b */".toList, rfl, ?_, ?_, by decide +kernel⟩ .nil⟩
      · decide +kernel
      · decide +kernel
    · exact ⟨by decide +kernel, .blank (by decide +kernel) (.slashes (by decide +kernel) .nil)⟩
    · refine ⟨by decide +kernel, .comment ⟨[], "/* d */".toList, rfl, ?_, List.forall_mem_nil _, by decide +kernel⟩ .nil⟩
      decide +kernel
  exact ⟨⟨hnew, hadded⟩, (read_padded (.inl rfl) hnew hadded false "x").1, exists_ok_of_any (by decide +kernel)⟩

end Repartee.Script
