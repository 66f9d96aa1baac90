/-
  Repartee.Proofs.Continuations — continuation lines are folded into their command.

  A command and the lines that continue it can as well be written on one line, with what the reader puts
  between them: a bar or a space in a definition, and otherwise the joiner that the statements before
  put in force. Comments and blank lines between the continuations make no difference, and neither does
  what comes after, further continuations included.

  Proved:
  - Continuations make rule lines of their mark (`itemsIn_continues`), which the statement that waits takes in
    (`statements_continues`), and what follows adds the same to a statement whatever it has
    (`exists_statements_waiting`).
  - The joiner in force is the one that was named last (`joiner_foldl_after`).
  - A text with continued lines is read like the one with the folded line, up to the numbers of lines
    (`continuations_fold`).
-/

import Repartee.Proofs.Directory
import Repartee.Proofs.Padding
import Repartee.Proofs.Placement

namespace Repartee.Script

open Text

/-! ## Continued lines -/

/-- Lines that continue a command with these bodies, after each other; comments and blank lines may come between. -/
inductive Continues : List (List Char) → List (List Char) → Prop
  | nil : Continues [] []
  | cons {gap raws bodies : List (List Char)} {raw rest : List Char} : Quiet gap → trim raw = '^' :: rest →
      trim rest ≠ [] → Continues bodies raws → Continues (trim rest :: bodies) (gap ++ raw :: raws)

/-- The joiner that an order names. -/
def Order.joiner? : Order → Option Joiner
  | .joiner named => some named
  | _ => none

/-- The orders that statements give, from a stance on. -/
def ordersFrom (st : Stance) : List Statement → List Order
  | [] => []
  | s :: ss => ((st.order? s).map (·.2)).toList ++ ordersFrom (st.after s) ss

/-- The joiner in force after the first lines of a text: the last that they name. -/
def joinerAfter (raws : List (List Char)) : Joiner :=
  ((ordersFrom {} (statements none (Reader.itemsIn .rules 1 raws))).filterMap Order.joiner?).getLast?.getD .nothing

/-- In the text, after some lines, a command stands outside objects and comments, and lines continue it. -/
structure Continued (text : String) (before : List (List Char)) (mark : Char) (body : List Char)
    (bodies continued after : List (List Char)) : Prop where
  lines : ∃ raw rest, linesIn text = before ++ raw :: (continued ++ after) ∧ trim raw = mark :: rest ∧ trim rest = body
  outside : Reader.modeAfter .rules 1 before = .rules
  marked : mark ∈ ['+', '-', '*', '%', '@', '!']
  nonempty : body ≠ []
  continues : Continues bodies continued
  joiner : mark = '!' ∨ joinerAfter before ≠ .lineFeed

/-- The line that a command makes with its continuations. -/
def foldedLine (joiner : Joiner) (mark : Char) (body : List Char) (bodies : List (List Char)) : List Char :=
  mark :: ' ' :: (joiner.fold ⟨mark, body, 0⟩ bodies).body

/-- The numbers of lines once `lost` of them, after line `n`, have given way to `kept` others. -/
def refolded (n lost kept line : Nat) : Nat := if line ≤ n then line else line - lost + kept

/-! ## Bodies -/

theorem trim_append_append {as bs : List Char} (ha : as ≠ [] ∧ trim as = as) (hb : bs ≠ [] ∧ trim bs = bs)
    (between : List Char) : trim (as ++ between ++ bs) = as ++ between ++ bs := by
  obtain ⟨a, as, rfl⟩ := List.exists_cons_of_ne_nil ha.1
  refine trim_of_ends (fun c hc => (ends_of_trim ha.2).1 c hc) fun c hc => (ends_of_trim hb.2).2 c ?_
  rwa [List.getLast?_append_of_ne_nil _ hb.1] at hc

theorem Continues.bodies {bodies raws : List (List Char)} (h : Continues bodies raws) :
    ∀ body ∈ bodies, body ≠ [] ∧ trim body = body := by
  induction h with
  | nil => exact List.forall_mem_nil _
  | cons _ _ hne _ ih => exact List.forall_mem_cons.mpr ⟨⟨hne, trim_trim _⟩, ih⟩

/-- Bodies that are trimmed fold to a trimmed body. -/
theorem trim_fold (joiner : Joiner) {c : Command} {bodies : List (List Char)} (hc : c.body ≠ [] ∧ trim c.body = c.body)
    (h : ∀ body ∈ bodies, body ≠ [] ∧ trim body = body) :
    (joiner.fold c bodies).body ≠ [] ∧ trim (joiner.fold c bodies).body = (joiner.fold c bodies).body := by
  induction bodies using List.reverseRecOn with
  | nil => exact hc
  | append_singleton bodies body ih =>
    have hbody := h body (List.mem_append_right _ List.mem_cons_self)
    have hfolded := ih fun b hb => h b (List.mem_append_left _ hb)
    rw [Reader.fold_concat]
    exact ⟨List.append_ne_nil_of_right_ne_nil _ hbody.1, trim_append_append hfolded hbody _⟩

theorem fold_append (joiner : Joiner) (c : Command) (bodies more : List (List Char)) :
    joiner.fold c (bodies ++ more) = joiner.fold (joiner.fold c bodies) more := List.foldl_append

/-- The folded line has the folded command. -/
theorem ruleLine_foldedLine (joiner : Joiner) {mark : Char} {body : List Char} {bodies : List (List Char)} {n : Nat}
    (hmark : Unicode.isBlank mark = false) (hbody : body ≠ [] ∧ trim body = body)
    (h : ∀ body ∈ bodies, body ≠ [] ∧ trim body = body) :
    ∃ rest, trim (foldedLine joiner mark body bodies) = mark :: rest ∧
      ⟨mark, trim rest, n⟩ = joiner.fold ⟨mark, body, n⟩ bodies := by
  have hrenumber := Reader.fold_renumber (f := fun _ => n) joiner ⟨mark, body, 0⟩ bodies
  obtain ⟨hne, htrim⟩ := trim_fold joiner (c := ⟨mark, body, 0⟩) hbody h
  obtain ⟨hfoldmark, -⟩ := Reader.mark_fold joiner ⟨mark, body, 0⟩ bodies
  refine ⟨' ' :: (joiner.fold ⟨mark, body, 0⟩ bodies).body, trim_of_ends ?_ ?_, ?_⟩
  · intro c hc
    cases hc
    exact hmark
  · intro c hc
    rw [foldedLine, List.getLast?_cons_cons, List.getLast?_cons_of_ne_nil hne] at hc
    exact (ends_of_trim htrim).2 c hc
  · have hspace : trim (' ' :: (joiner.fold ⟨mark, body, 0⟩ bodies).body) = trim (joiner.fold ⟨mark, body, 0⟩ bodies).body :=
      trim_blanks_append (List.forall_mem_singleton.mpr (by decide)) _
    change _ = joiner.fold (Command.renumber (fun _ => n) ⟨mark, body, 0⟩) bodies
    rw [hspace, htrim, hrenumber, Command.renumber, hfoldmark]

/-! ## Texts of lines -/

/-- No line of a text has a line feed. -/
theorem feed_not_mem_linesIn {text : String} {raw : List Char} (h : raw ∈ linesIn text) : '\n' ∉ raw := by
  have hpieces : ∀ piece ∈ fields (· == '\n') text.toList, '\n' ∉ piece := by
    intro piece hpiece hmem
    have hfeed := eq_false_of_mem_fields hpiece hmem
    exact absurd hfeed (by decide)
  rw [linesIn] at h
  generalize fields (· == '\n') text.toList = pieces at h hpieces
  induction pieces with
  | nil => cases h
  | cons piece pieces ih =>
    obtain ⟨hpiece, hrest⟩ := List.forall_mem_cons.mp hpieces
    cases pieces with
    | nil =>
      rw [linesOfPieces] at h
      split at h
      · cases h
      · rwa [List.mem_singleton.mp h]
    | cons next pieces =>
      rcases List.mem_cons.mp h with rfl | h
      · intro hmem
        rcases dropReturn_cases piece with hdrop | ⟨ds, rfl, hdrop⟩
        · exact hpiece (hdrop ▸ hmem)
        · exact hpiece (List.mem_append_left _ (hdrop ▸ hmem))
      · exact ih h hrest

/-- Lines without line feeds are those of some text. -/
theorem exists_text {raws : List (List Char)} (h : ∀ raw ∈ raws, '\n' ∉ raw) : ∃ text, linesIn text = raws := by
  refine ⟨.ofList (raws.flatMap (· ++ ['\r', '\n'])), ?_⟩
  rw [linesIn, String.toList_ofList]
  induction raws with
  | nil => rfl
  | cons raw raws ih =>
    obtain ⟨hraw, hrest⟩ := List.forall_mem_cons.mp h
    have hpiece : fields (· == '\n') (raw ++ ['\r']) = [raw ++ ['\r']] := by
      refine fields_of_forall fun c hc => ?_
      rw [beq_eq_false_iff_ne]
      rintro rfl
      rcases List.mem_append.mp hc with hc | hc
      · exact hraw hc
      · exact absurd hc (by decide)
    have hcons : (raw :: raws).flatMap (· ++ ['\r', '\n']) = (raw ++ ['\r']) ++ '\n' :: raws.flatMap (· ++ ['\r', '\n']) := by
      simp
    rw [hcons, fields_append _ _ (by decide), hpiece, linesOfPieces_append (fields_ne_nil _ _), ih hrest,
      List.map_singleton, dropReturn_append_return, List.singleton_append]

theorem Continues.feed_not_mem {bodies raws : List (List Char)} (h : Continues bodies raws)
    (hraws : ∀ raw ∈ raws, '\n' ∉ raw) : ∀ body ∈ bodies, '\n' ∉ body := by
  induction h with
  | nil => exact List.forall_mem_nil _
  | @cons gap raws bodies raw rest _ hraw _ _ ih =>
    obtain ⟨hfree, hlater⟩ := List.forall_mem_cons.mp (List.forall_mem_append.mp hraws).2
    refine List.forall_mem_cons.mpr ⟨fun hmem => hfree (mem_of_mem_trim ?_), ih hlater⟩
    rw [hraw]
    exact List.mem_cons_of_mem _ (mem_of_mem_trim hmem)

/-- What is put between bodies has no line feed, unless the joiner is one. -/
theorem feed_not_mem_fold {joiner : Joiner} {c : Command} {bodies : List (List Char)}
    (hjoiner : c.mark = '!' ∨ joiner ≠ .lineFeed) (hc : '\n' ∉ c.body) (h : ∀ body ∈ bodies, '\n' ∉ body) :
    '\n' ∉ (joiner.fold c bodies).body := by
  induction bodies using List.reverseRecOn with
  | nil => exact hc
  | append_singleton bodies body ih =>
    have hbetween : '\n' ∉ joiner.between (joiner.fold c bodies) := by
      rw [Joiner.between, (Reader.mark_fold joiner c bodies).1]
      split
      · split <;> decide
      · rename_i hmark
        cases joiner with
        | lineFeed => exact absurd rfl (hjoiner.resolve_left hmark)
        | nothing => decide
        | space => decide
    rw [Reader.fold_concat]
    simp only [List.mem_append, not_or]
    exact ⟨⟨ih fun b hb => h b (List.mem_append_left _ hb), hbetween⟩, h body (List.mem_append_right _ List.mem_cons_self)⟩

namespace Reader

variable {m : Mode} {line line' : Nat} {raw : List Char} {bodies raws : List (List Char)} {c : Command} {f : Nat → Nat}

/-! ## Items -/

theorem lineItems_rule {mark : Char} {rest : List Char} (h : trim raw = mark :: rest) (hmark : mark ≠ '/' ∧ mark ≠ '>')
    (line : Nat) : lineItems .rules line raw = ([.rule ⟨mark, trim rest, line⟩], .rules) := by
  have hrule : ruleLine? line (mark :: rest) = some ⟨mark, trim rest, line⟩ := by
    simp [ruleLine?, startsWith, after?, hmark.1.symm]
  have hobject : object? ⟨mark, trim rest, line⟩ = none := by
    by_contra hsome
    obtain ⟨o, ho⟩ := Option.ne_none_iff_exists'.mp hsome
    exact hmark.2 (mark_of_object? ho)
  simp [lineItems, h, hrule, hobject]

/-- Continuations make rule lines of their mark, and leave nothing open. -/
theorem itemsIn_continues (h : Continues bodies raws) (line : Nat) : modeAfter .rules line raws = .rules ∧
    ∃ cs : List Command, itemsIn .rules line raws = cs.map .rule ∧ (∀ c ∈ cs, c.mark = '^') ∧ cs.map (·.body) = bodies := by
  induction h generalizing line with
  | nil => exact ⟨rfl, [], rfl, List.forall_mem_nil _, rfl⟩
  | @cons gap raws bodies raw rest hgap hraw _ _ ih =>
    obtain ⟨hnone, hrules⟩ := items_of_quiet hgap line
    have hitems := lineItems_rule hraw (by decide) (line + gap.length)
    obtain ⟨hmode, cs, hcs, hmarks, hbodies⟩ := ih (line + gap.length + 1)
    rw [modeAfter_append, itemsIn_append, hnone, hrules, modeAfter, itemsIn, hitems]
    exact ⟨hmode, ⟨'^', trim rest, line + gap.length⟩ :: cs, by rw [hcs]; rfl, List.forall_mem_cons.mpr ⟨rfl, hmarks⟩,
      by rw [List.map_cons, hbodies]⟩

/-- Lines that begin under another number make the same items under other numbers. -/
theorem itemsIn_shift (h : ∀ k < raws.length, f (line + k) = line' + k) :
    itemsIn (m.renumber f) line' raws = (itemsIn m line raws).map (·.renumber f) ∧
      modeAfter (m.renumber f) line' raws = (modeAfter m line raws).renumber f := by
  induction raws generalizing m line line' with
  | nil => exact ⟨rfl, rfl⟩
  | cons raw raws ih =>
    have hline : f line = line' := h 0 (Nat.succ_pos _)
    have hlater : ∀ k < raws.length, f (line + 1 + k) = line' + 1 + k := by
      intro k hk
      rw [Nat.add_assoc, Nat.add_comm 1, h (k + 1) (Nat.succ_lt_succ hk), Nat.add_assoc, Nat.add_comm 1]
    obtain ⟨hitems, hmode⟩ := ih (m := (lineItems m line raw).2) hlater
    rw [itemsIn, itemsIn, modeAfter, modeAfter, ← hline, lineItems_renumber, hline, hitems, hmode, List.map_append]
    exact ⟨rfl, rfl⟩

theorem items_shift (h : ∀ k < raws.length, f (line + k) = line' + k) :
    items (m.renumber f) line' raws = (items m line raws).map (·.renumber f) := by
  obtain ⟨hitems, hmode⟩ := itemsIn_shift (m := m) h
  rw [items_eq, items_eq, hitems, hmode, lastItems_renumber, List.map_append]

/-! ## Statements -/

/-- A command begins to wait, and what waited before is complete. -/
theorem statements_before (hc : c.mark ≠ '^' ∧ c.mark ≠ '>' ∧ c.mark ≠ '<') (w : Option (Command × List (List Char)))
    (is later : List Item) :
    statements w (is ++ .rule c :: later) = statements w is ++ statements (some (c, [])) later := by
  induction is generalizing w with
  | nil => simp [statements, heard, hc]
  | cons i is ih => rw [List.cons_append, statements, ih, statements, List.append_assoc]

/-- What waits takes in the bodies of its continuations. -/
theorem statements_continues {cs : List Command} (hcs : ∀ c ∈ cs, c.mark = '^') (c : Command) (pre : List (List Char))
    (later : List Item) :
    statements (some (c, pre)) (cs.map .rule ++ later) = statements (some (c, pre ++ cs.map (·.body))) later := by
  induction cs generalizing pre with
  | nil => simp
  | cons d cs ih =>
    obtain ⟨hd, hrest⟩ := List.forall_mem_cons.mp hcs
    rw [List.map_cons, List.cons_append, statements, heard, if_pos hd, List.nil_append, ih hrest, List.map_cons,
      List.append_assoc, List.singleton_append]

/-- What follows a command that waits adds the same to it, and the same after it, whatever the command and its
bodies so far. -/
theorem exists_statements_waiting (is : List Item) : ∃ more later, ∀ c pre,
    statements (some (c, pre)) is = .command c (pre ++ more) :: later := by
  induction is with
  | nil => exact ⟨[], [], fun c pre => by rw [List.append_nil]; rfl⟩
  | cons i is ih =>
    have hends : (∃ ss w, ∀ c pre, heard (some (c, pre)) i = (.command c pre :: ss, w)) →
        ∃ more later, ∀ c pre, statements (some (c, pre)) (i :: is) = .command c (pre ++ more) :: later := by
      intro ⟨ss, w, hheard⟩
      refine ⟨[], ss ++ statements w is, fun c pre => ?_⟩
      rw [statements, hheard, List.append_nil]
      rfl
    cases i with
    | object o => exact hends ⟨_, _, fun _ _ => rfl⟩
    | unclosed o => exact hends ⟨_, _, fun _ _ => rfl⟩
    | rule d =>
      by_cases hd : d.mark = '^'
      · obtain ⟨more, later, hrest⟩ := ih
        refine ⟨d.body :: more, later, fun c pre => ?_⟩
        rw [statements, heard, if_pos hd, List.nil_append, hrest, List.append_assoc, List.singleton_append]
      · by_cases hblock : d.mark = '>' ∨ d.mark = '<'
        · refine hends ⟨[.block d], none, fun c pre => ?_⟩
          rw [heard, if_neg hd, if_pos hblock]
          rfl
        · refine hends ⟨[], some (d, []), fun c pre => ?_⟩
          rw [heard, if_neg hd, if_neg hblock]
          rfl

/-- To carry out a command with bodies that wait is to carry out the command that they fold to. -/
theorem foldlM_carry_folded (r : Reader) (c : Command) (bodies : List (List Char)) (is : List Item) :
    (statements (some (c, bodies)) is).foldlM carry r =
      (statements (some (r.joiner.fold c bodies, [])) is).foldlM carry r := by
  obtain ⟨more, later, hstatements⟩ := exists_statements_waiting is
  rw [hstatements, hstatements, List.foldlM_cons, List.foldlM_cons, carry, carry, fold_append, List.nil_append]

/-! ## The joiner in force -/

theorem joiner_obey (st : Stance) (o : Order) : (st.obey o).joiner = o.joiner?.getD st.joiner := by
  cases o with
  | openTopic name header =>
    rw [Stance.obey]
    split <;> rfl
  | _ => rfl

/-- The joiner that the statements come to is the last one that they name. -/
theorem joiner_foldl_after (st : Stance) (ss : List Statement) :
    (ss.foldl Stance.after st).joiner = ((ordersFrom st ss).filterMap Order.joiner?).getLast?.getD st.joiner := by
  induction ss generalizing st with
  | nil => rfl
  | cons s ss ih =>
    have hafter : (st.after s).joiner = (((st.order? s).map (·.2)).bind Order.joiner?).getD st.joiner := by
      rw [Stance.after]
      cases st.order? s with
      | none => rfl
      | some o => exact joiner_obey st o.2
    rw [List.foldl_cons, ih, hafter, ordersFrom, List.filterMap_append, List.getLast?_append]
    cases ((ordersFrom (st.after s) ss).filterMap Order.joiner?).getLast? with
    | some joiner => rfl
    | none =>
      cases h : (st.order? s).map (·.2) with
      | none => rfl
      | some o => cases ho : o.joiner? <;> simp [ho]

/-- A reader that has carried out the statements of the first lines joins as they say. -/
theorem joiner_of_foldlM {strict : Bool} {origin : String} {raws : List (List Char)} {r : Reader}
    (h : (statements none (itemsIn .rules 1 raws)).foldlM carry { strict, script := { origin } } = .ok r) :
    r.joiner = joinerAfter raws := by
  have hkeeps := keeps_foldlM (keeps_start strict origin) h
  rw [hkeeps.joiner]
  exact joiner_foldl_after {} _

end Reader

open Reader

/-! ## Folded texts -/

theorem refolded_of_le {n lost kept line : Nat} (h : line ≤ n) : refolded n lost kept line = line := if_pos h

theorem refolded_after (n lost kept k : Nat) : refolded n lost kept (n + 1 + lost + k) = n + 1 + kept + k := by
  rw [refolded, if_neg (by omega)]
  omega

section Continued

variable {old new : String} {before continued after kept bodies : List (List Char)} {mark : Char} {body : List Char}

theorem Continued.mark_ne (h : Continued old before mark body bodies continued after) :
    Unicode.isBlank mark = false ∧ (mark ≠ '/' ∧ mark ≠ '>') ∧ mark ≠ '^' ∧ mark ≠ '>' ∧ mark ≠ '<' := by
  have hmarked := h.marked
  simp only [List.mem_cons, List.not_mem_nil, or_false] at hmarked
  rcases hmarked with rfl | rfl | rfl | rfl | rfl | rfl <;> decide

theorem Continued.trimmed (h : Continued old before mark body bodies continued after) : body ≠ [] ∧ trim body = body := by
  obtain ⟨raw, rest, -, -, hbody⟩ := h.lines
  exact ⟨h.nonempty, by rw [← hbody, trim_trim]⟩

/-- The items of the text with the continued lines. -/
theorem Continued.exists_itemsOf (h : Continued old before mark body bodies continued after) : ∃ cs : List Command,
    (∀ c ∈ cs, c.mark = '^') ∧ cs.map (·.body) = bodies ∧
      itemsOf old = itemsIn .rules 1 before ++ .rule ⟨mark, body, before.length + 1⟩ ::
        (cs.map .rule ++ items .rules (before.length + 1 + 1 + continued.length) after) := by
  obtain ⟨raw, rest, hlines, hraw, rfl⟩ := h.lines
  obtain ⟨hmode, cs, hcs, hmarks, hbodies⟩ := itemsIn_continues h.continues (before.length + 1 + 1)
  refine ⟨cs, hmarks, hbodies, ?_⟩
  rw [itemsOf_eq, hlines, items_append, h.outside, Nat.add_comm 1, Reader.items, lineItems_rule hraw h.mark_ne.2.1,
    items_append, hmode, hcs, List.singleton_append]

/-- The items of the text with the folded line, under the numbers that the old text gives to the rest. -/
theorem Continued.itemsOf_folded (h : Continued old before mark body bodies continued after) (hkept : Quiet kept)
    (hnew : linesIn new = before ++ foldedLine (joinerAfter before) mark body bodies :: (kept ++ after)) :
    itemsOf new = (itemsIn .rules 1 before ++ .rule ((joinerAfter before).fold ⟨mark, body, before.length + 1⟩ bodies) ::
      items .rules (before.length + 1 + 1 + continued.length) after).map
        (·.renumber (refolded (before.length + 1) continued.length kept.length)) := by
  obtain ⟨rest, hline, hfolded⟩ := ruleLine_foldedLine (joinerAfter before) (n := before.length + 1) h.mark_ne.1 h.trimmed
    h.continues.bodies
  obtain ⟨hnone, hmode⟩ := items_of_quiet hkept (before.length + 1 + 1)
  have hsame : ∀ line ≤ before.length + 1, refolded (before.length + 1) continued.length kept.length line = line :=
    fun _ => refolded_of_le
  have hmoved := refolded_after (before.length + 1) continued.length kept.length
  generalize refolded (before.length + 1) continued.length kept.length = f at hsame hmoved
  have hbefore : itemsIn .rules 1 before = (itemsIn .rules 1 before).map (·.renumber f) :=
    (itemsIn_shift (m := .rules) fun k hk => hsame _ (by omega)).1
  have hafter : items .rules (before.length + 1 + 1 + kept.length) after =
      (items .rules (before.length + 1 + 1 + continued.length) after).map (·.renumber f) :=
    items_shift (m := .rules) fun k _ => hmoved k
  have hnumber : ((joinerAfter before).fold ⟨mark, body, before.length + 1⟩ bodies).renumber f =
      (joinerAfter before).fold ⟨mark, body, before.length + 1⟩ bodies := by
    rw [← fold_renumber, Command.renumber, hsame _ (Nat.le_refl _)]
  rw [itemsOf_eq, hnew, items_append, h.outside, Nat.add_comm 1, items, lineItems_rule hline h.mark_ne.2.1, hfolded,
    items_append, hnone, hmode, List.nil_append, List.singleton_append, hafter, List.map_append, List.map_cons, ← hbefore,
    Item.renumber, hnumber]

/-- The folded line is a line. -/
theorem Continued.exists_folded (h : Continued old before mark body bodies continued after) :
    ∃ new, linesIn new = before ++ foldedLine (joinerAfter before) mark body bodies :: after := by
  obtain ⟨raw, rest, hlines, hraw, rfl⟩ := h.lines
  have hfree : ∀ raw ∈ linesIn old, '\n' ∉ raw := fun raw => feed_not_mem_linesIn
  rw [hlines, List.forall_mem_append, List.forall_mem_cons, List.forall_mem_append] at hfree
  obtain ⟨hbefore, hfirst, hcontinued, hafter⟩ := hfree
  refine exists_text (List.forall_mem_append.mpr ⟨hbefore, List.forall_mem_cons.mpr ⟨?_, hafter⟩⟩)
  have hmark : mark ≠ '\n' := by
    rintro rfl
    exact absurd h.mark_ne.1 (by decide)
  have hbody : '\n' ∉ trim rest := by
    intro hmem
    refine hfirst (mem_of_mem_trim ?_)
    rw [hraw]
    exact List.mem_cons_of_mem _ (mem_of_mem_trim hmem)
  have hfolded := feed_not_mem_fold (c := ⟨mark, trim rest, 0⟩) h.joiner hbody (h.continues.feed_not_mem hcontinued)
  rw [foldedLine, List.mem_cons, List.mem_cons, not_or, not_or]
  exact ⟨hmark.symm, by decide, hfolded⟩

/-- A text in which a command is continued is read like the one with the folded line in place of the command and the
lines that continue it, up to the numbers of lines: the same script or the same fault. The comments and blank lines that
stood between them may be left out or not. -/
theorem continuations_fold (h : Continued old before mark body bodies continued after) :
    (∃ new, linesIn new = before ++ foldedLine (joinerAfter before) mark body bodies :: after) ∧
      ∀ kept new, Quiet kept →
        linesIn new = before ++ foldedLine (joinerAfter before) mark body bodies :: (kept ++ after) →
          ∀ strict origin, read strict origin new =
            shifted (refolded (before.length + 1) continued.length kept.length)
              (renumber (refolded (before.length + 1) continued.length kept.length)) (read strict origin old) := by
  refine ⟨h.exists_folded, fun kept new hkept hnew strict origin => ?_⟩
  obtain ⟨cs, hmarks, hbodies, hitems⟩ := h.exists_itemsOf
  have hplain := h.mark_ne.2.2
  have hfoldmark := (mark_fold (joinerAfter before) ⟨mark, body, before.length + 1⟩ bodies).1
  rw [read_of_renumbered (refolded_of_le (Nat.zero_le _)) (h.itemsOf_folded hkept hnew), read_eq, statementsOf, hitems,
    statements_before (c := ⟨mark, body, before.length + 1⟩) hplain, statements_continues hmarks, hbodies, List.nil_append,
    statements_before (by rwa [hfoldmark]), List.foldlM_append, List.foldlM_append]
  -- the statements before are the same, and leave the reader with the joiner that they name
  cases hfirst : (statements none (itemsIn .rules 1 before)).foldlM carry { strict, script := { origin } } with
  | error e => rfl
  | ok r =>
    have hcarry := foldlM_carry_folded r ⟨mark, body, before.length + 1⟩ bodies
      (items .rules (before.length + 1 + 1 + continued.length) after)
    rw [joiner_of_foldlM hfirst] at hcarry
    exact congrArg (fun x => shifted _ _ (Except.map _ x)) hcarry.symm

/-- A reply over three lines with a space between, a comment and a blank line among them. -/
theorem continuations_fold_spaced :
    let old := "! local concat = space\n+ hello\n- well\n\n^ hello\n/* and\nso on */\n^ there\n+ bye\n- so long"
    let new := "! local concat = space\n+ hello\n- well hello there\n+ bye\n- so long"
    let before := ["! local concat = space".toList, "+ hello".toList]
    let continued := [[], "^ hello".toList, "/* and".toList, "so on */".toList, "^ there".toList]
    let after := ["+ bye".toList, "- so long".toList]
    Continued old before '-' "well".toList ["hello".toList, "there".toList] continued after ∧
      (Quiet [] ∧ linesIn new = before ++ foldedLine (joinerAfter before) '-' "well".toList ["hello".toList, "there".toList] ::
        ([] ++ after)) ∧
      (∀ strict origin, read strict origin new =
        shifted (refolded 3 5 0) (renumber (refolded 3 5 0)) (read strict origin old)) ∧
      ∃ script, read false "x" old = .ok script ∧
        script.topics.flatMap (·.triggers.flatMap (·.replies)) = [⟨"well hello there", 3⟩, ⟨"so long", 10⟩] := by
  intro old new before continued after
  have hlines : linesIn old = before ++ "- well".toList :: (continued ++ after) := by decide +kernel
  have hnew : linesIn new = before ++ foldedLine (joinerAfter before) '-' "well".toList ["hello".toList, "there".toList] ::
      ([] ++ after) := by decide +kernel
  have hcomment : IsComment ["/* and".toList, "so on */".toList] :=
    ⟨["/* and".toList], "so on */".toList, rfl, by decide +kernel, by decide +kernel, by decide +kernel⟩
  have hfirst : trim "^ hello".toList = '^' :: " hello".toList := by decide +kernel
  have hsecond : trim "^ there".toList = '^' :: " there".toList := by decide +kernel
  have hcontinues : Continues ["hello".toList, "there".toList] continued :=
    .cons (.blank (by decide +kernel) .nil) hfirst (by decide +kernel)
      (.cons (.comment hcomment .nil) hsecond (by decide +kernel) .nil)
  have hcontinued : Continued old before '-' "well".toList ["hello".toList, "there".toList] continued after :=
    ⟨⟨_, " well".toList, hlines, by decide +kernel, by decide +kernel⟩, by decide +kernel, by decide, by decide, hcontinues,
      .inr (by decide +kernel)⟩
  exact ⟨hcontinued, ⟨.nil, hnew⟩, (continuations_fold hcontinued).2 [] new .nil hnew, exists_ok_of_any (by decide +kernel)⟩

end Continued

end Repartee.Script
