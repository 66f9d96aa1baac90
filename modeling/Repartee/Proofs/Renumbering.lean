/-
  Repartee.Proofs.Renumbering — reading lines under other numbers.

  A reader keeps the numbers of lines and never looks at them. Where the lines of a text get other numbers,
  the same is read, with the other numbers in place of the old ones.

  Proved:
  - A line under another number makes the same items, renumbered (`lineItems_renumber`), and renumbered items
    make the renumbered statements (`statements_renumber`).
  - To carry out renumbered statements comes to the renumbered result, in success and in failure
    (`carry_renumber`, `foldlM_renumber`); only the home topic keeps its number, zero.
  - Texts with the same items but for their numbers are read alike (`read_renumber`).
-/

import Repartee.Proofs.Statements.Lines

namespace Repartee

def Line.renumber (f : Nat → Nat) (l : Line) : Line := { l with number := f l.number }

namespace Script

open Text

/-! ## Other numbers -/

section

variable (f : Nat → Nat)

def Trigger.renumber (t : Trigger) : Trigger :=
  { pattern := t.pattern.renumber f
    previous := t.previous.map (·.renumber f)
    replies := t.replies.map (·.renumber f)
    conditions := t.conditions.map (·.renumber f)
    redirect := t.redirect.map (·.renumber f) }

def Topic.renumber (t : Topic) : Topic := { t with line := f t.line, triggers := t.triggers.map (·.renumber f) }

def Object.renumber (o : Object) : Object := { o with line := f o.line }

def renumber (s : Script) : Script :=
  { s with topics := s.topics.map (·.renumber f), objects := s.objects.map (·.renumber f) }

def SyntaxError.renumber (e : SyntaxError) : SyntaxError := { e with line := f e.line }

def Command.renumber (c : Command) : Command := { c with line := f c.line }

def Mode.renumber : Mode → Mode
  | .object o => .object (o.renumber f)
  | m => m

def Item.renumber : Item → Item
  | .rule c => .rule (c.renumber f)
  | .object o => .object (o.renumber f)
  | .unclosed o => .unclosed (o.renumber f)

def Statement.renumber : Statement → Statement
  | .block c => .block (c.renumber f)
  | .command c more => .command (c.renumber f) more
  | .stray line => .stray (f line)
  | .object o => .object (o.renumber f)
  | .unclosed o => .unclosed (o.renumber f)

def Reader.renumber (r : Reader) : Reader :=
  { r with script := r.script.renumber f, mode := r.mode.renumber f, pending := r.pending.map (·.renumber f) }

/-- A result under other numbers. -/
def shifted {α : Type} (g : α → α) (x : Except SyntaxError α) : Except SyntaxError α :=
  (x.map g).mapError (·.renumber f)

end

variable {f : Nat → Nat}

theorem bind_shifted {α : Type} {g : α → α} {x : Except SyntaxError α} {k k' : α → Except SyntaxError α}
    (h : ∀ a, k' (g a) = shifted f g (k a)) : shifted f g x >>= k' = shifted f g (x >>= k) := by
  cases x with
  | error e => rfl
  | ok a => exact h a

namespace Reader

variable {r : Reader} {m : Mode} {line : Nat} {c : Command} {o : Order} {s : Statement}
  {w : Option (Command × List (List Char))}

/-! ## Items and statements -/

theorem orderOf_renumber (c : Command) : orderOf (c.renumber f) = orderOf c := rfl

theorem object?_renumber (c : Command) : object? (c.renumber f) = (object? c).map (·.renumber f) := by
  rw [object?, object?, orderOf_renumber]
  cases orderOf c <;> rfl

theorem ruleLine?_renumber (line : Nat) (cs : List Char) :
    ruleLine? (f line) cs = (ruleLine? line cs).map (·.renumber f) := by
  unfold ruleLine?
  split
  · rfl
  · cases cs <;> rfl

/-- A line under another number makes the same items under other numbers. -/
theorem lineItems_renumber (m : Mode) (line : Nat) (raw : List Char) :
    lineItems (m.renumber f) (f line) raw =
      ((lineItems m line raw).1.map (·.renumber f), (lineItems m line raw).2.renumber f) := by
  cases m with
  | object o =>
    simp only [Mode.renumber, lineItems]
    split <;> rfl
  | comment =>
    simp only [Mode.renumber, lineItems]
    split <;> rfl
  | rules =>
    simp only [Mode.renumber, lineItems, ruleLine?_renumber]
    cases hrule : ruleLine? line (trim raw) with
    | none =>
      simp only [Option.map_none]
      split <;> rfl
    | some c =>
      simp only [Option.map_some, object?_renumber]
      cases object? c <;> rfl

theorem lastItems_renumber (m : Mode) : lastItems (m.renumber f) = (lastItems m).map (·.renumber f) := by
  cases m <;> rfl

/-- What waits, under other numbers. -/
def renumberWaiting (f : Nat → Nat) (w : Option (Command × List (List Char))) : Option (Command × List (List Char)) :=
  w.map fun w => (w.1.renumber f, w.2)

theorem waiting_renumber (w : Option (Command × List (List Char))) :
    waiting (renumberWaiting f w) = (waiting w).map (·.renumber f) := by
  cases w <;> rfl

theorem heard_renumber (w : Option (Command × List (List Char))) (i : Item) :
    heard (renumberWaiting f w) (i.renumber f) = ((heard w i).1.map (·.renumber f), renumberWaiting f (heard w i).2) := by
  cases i with
  | rule c =>
    have hmark : (c.renumber f).mark = c.mark := rfl
    simp only [Item.renumber, heard, hmark]
    by_cases hcontinues : c.mark = '^'
    · rw [if_pos hcontinues, if_pos hcontinues]
      cases w <;> rfl
    · rw [if_neg hcontinues, if_neg hcontinues]
      split
      · rw [waiting_renumber, List.map_append]
        rfl
      · rw [waiting_renumber]
        rfl
  | object o =>
    rw [Item.renumber, heard, heard, waiting_renumber, List.map_append]
    rfl
  | unclosed o =>
    rw [Item.renumber, heard, heard, waiting_renumber, List.map_append]
    rfl

theorem statements_renumber (w : Option (Command × List (List Char))) (is : List Item) :
    statements (renumberWaiting f w) (is.map (·.renumber f)) = (statements w is).map (·.renumber f) := by
  induction is generalizing w with
  | nil => exact waiting_renumber w
  | cons i is ih => rw [List.map_cons, statements, heard_renumber, statements, List.map_append, ← ih]

/-! ## One statement -/

theorem fold_renumber (j : Joiner) (c : Command) (more : List (List Char)) :
    j.fold (c.renumber f) more = (j.fold c more).renumber f := by
  induction more using List.reverseRecOn with
  | nil => rfl
  | append_singleton more body ih =>
    rw [fold_concat, fold_concat, ih]
    rfl

theorem complain_renumber (r : Reader) (line : Nat) (fault : Fault) :
    (r.renumber f).complain (f line) fault = shifted f (·.renumber f) (r.complain line fault) := by
  rw [complain, complain]
  change (if r.strict = true then _ else _) = _
  split <;> rfl

theorem editTopic_renumber {edit edit' : Topic → Topic} (h : ∀ t, (edit t).renumber f = edit' (t.renumber f)) (i : Nat) :
    (r.editTopic i edit).renumber f = (r.renumber f).editTopic i edit' := by
  have htopics : (r.script.topics.modify i edit).map (·.renumber f) = (r.script.topics.map (·.renumber f)).modify i edit' :=
    map_modify fun t _ => h t
  simp only [editTopic, Reader.renumber, Script.renumber, htopics]

theorem readEdges_renumber (t : Topic) (edge : Option Edge) (ws : List String) :
    readEdges (t.renumber f) edge ws = ((readEdges t edge ws).1.renumber f, (readEdges t edge ws).2) := by
  induction ws generalizing t edge with
  | nil => rfl
  | cons w ws ih =>
    rw [readEdges_cons, readEdges_cons]
    split
    · exact ih t _
    · split
      · exact ih t _
      · cases edge with
        | none => rfl
        | some e =>
          have hadd : e.add (t.renumber f) (lowercase w) = (e.add t (lowercase w)).renumber f := by cases e <;> rfl
          simp only [hadd]
          exact ih _ _

theorem locate_renumber (r : Reader) (name : String) (line : Nat) :
    (r.renumber f).locate name (f line) = ((r.locate name line).1.renumber f, (r.locate name line).2) := by
  have hfind : (r.renumber f).script.topics.findIdx? (·.name = name) = r.script.topics.findIdx? (·.name = name) := by
    change (r.script.topics.map (·.renumber f)).findIdx? _ = _
    rw [List.findIdx?_map]
    rfl
  rw [locate, locate, hfind]
  cases r.script.topics.findIdx? (·.name = name) with
  | some index => rfl
  | none =>
    simp only [Reader.renumber, Script.renumber, List.map_append, List.length_map]
    rfl

theorem goOn_renumber (r : Reader) (index line : Nat) (topic : Topic) (stray : Option String) :
    (r.renumber f).goOn index (f line) (topic.renumber f, stray) =
      shifted f (·.renumber f) (r.goOn index line (topic, stray)) := by
  have hedit : (r.editTopic index fun _ => topic).renumber f = (r.renumber f).editTopic index fun _ => topic.renumber f := by
    refine editTopic_renumber ?_ index
    intro t
    rfl
  cases stray with
  | some word =>
    rw [goOn, goOn, ← hedit]
    exact complain_renumber _ line _
  | none =>
    rw [goOn, goOn, ← hedit]
    rfl

/-- A topic that is not there has the number zero. -/
theorem getD_renumber (hf : f 0 = 0) (ts : List Topic) (i : Nat) :
    (ts.map (·.renumber f)).getD i default = (ts.getD i default).renumber f := by
  have hdefault : (default : Topic).renumber f = default := by
    change ({ (default : Topic) with line := f 0 } : Topic) = default
    rw [hf]
    rfl
  simp only [List.getD_eq_getElem?_getD, List.getElem?_map]
  cases ts[i]? with
  | none => exact hdefault.symm
  | some t => rfl

theorem openTopic_renumber (hf : f 0 = 0) (r : Reader) (name : String) (header : List String) (line : Nat) :
    (r.renumber f).openTopic name header (f line) = shifted f (·.renumber f) (r.openTopic name header line) := by
  rw [openTopic_eq, openTopic_eq, locate_renumber]
  generalize r.locate (lowercase name) line = located
  have htopic : (located.1.renumber f).script.topics.getD located.2 default =
      (located.1.script.topics.getD located.2 default).renumber f := getD_renumber hf _ _
  simp only [htopic, readEdges_renumber]
  exact goOn_renumber _ _ _ _ _

theorem attach_renumber (mark : Char) (l : Line) (t : Trigger) :
    attach mark (l.renumber f) (t.renumber f) = (attach mark l t).renumber f := by
  rw [attach, attach]
  by_cases hreply : mark = '-'
  · simp [hreply, Trigger.renumber]
  · by_cases hcondition : mark = '*'
    · simp [hcondition, Trigger.renumber]
    · by_cases hprevious : mark = '%'
      · simp [hprevious, Trigger.renumber]
      · simp [hreply, hcondition, hprevious, Trigger.renumber]

/-- An order given on another line does the same under other numbers. -/
theorem carryOut_renumber (hf : f 0 = 0) (r : Reader) (line : Nat) (o : Order) :
    (r.renumber f).carryOut (f line) o = shifted f (·.renumber f) (r.carryOut line o) := by
  cases o with
  | openTopic name header => exact openTopic_renumber hf r name header line
  | trigger text =>
    refine congrArg Except.ok (editTopic_renumber ?_ r.current).symm
    intro t
    simp only [Topic.renumber, List.map_append]
    rfl
  | attachment mark text =>
    have hempty : (r.renumber f).currentTopic.triggers.isEmpty = r.currentTopic.triggers.isEmpty := by
      have htopic : (r.renumber f).currentTopic = r.currentTopic.renumber f := getD_renumber hf _ _
      rw [htopic]
      exact List.isEmpty_map
    rw [carryOut, carryOut, hempty]
    split
    · rfl
    · refine congrArg Except.ok (editTopic_renumber ?_ r.current).symm
      intro t
      have hlast : (editLast (attach mark ⟨text, line⟩) t.triggers).map (·.renumber f) =
          editLast (attach mark ⟨text, f line⟩) (t.triggers.map (·.renumber f)) := by
        rw [editLast, editLast, List.length_map]
        exact map_modify fun u _ => (attach_renumber mark ⟨text, line⟩ u).symm
      simp only [Topic.renumber, hlast]
  | odd fault => exact complain_renumber r line fault
  | _ => rfl

theorem act_renumber (hf : f 0 = 0) (r : Reader) (c : Command) :
    (r.renumber f).act (c.renumber f) = shifted f (·.renumber f) (r.act c) := by
  rw [act_eq, act_eq, orderOf_renumber]
  change (if r.passesOver c.mark = true then _ else _) = _
  split
  · rfl
  · exact carryOut_renumber hf r c.line (orderOf c)

/-- A statement on other lines does the same under other numbers. -/
theorem carry_renumber (hf : f 0 = 0) (r : Reader) (s : Statement) :
    (r.renumber f).carry (s.renumber f) = shifted f (·.renumber f) (r.carry s) := by
  cases s with
  | block c =>
    rw [Statement.renumber, carry, carry, object?_renumber, Option.isSome_map]
    split
    · rfl
    · exact act_renumber hf r c
  | command c more =>
    have hjoiner : (r.renumber f).joiner = r.joiner := rfl
    rw [Statement.renumber, carry, carry, hjoiner, fold_renumber]
    exact act_renumber hf r _
  | stray line => exact complain_renumber r line .nothingToContinue
  | object o =>
    rw [Statement.renumber, carry, carry]
    simp only [Reader.renumber, Script.renumber, shifted, Except.map, Except.mapError, List.map_append]
    rfl
  | unclosed o => rfl

/-! ## A text -/

theorem foldlM_renumber (hf : f 0 = 0) (r : Reader) (ss : List Statement) :
    (ss.map (·.renumber f)).foldlM carry (r.renumber f) = shifted f (·.renumber f) (ss.foldlM carry r) := by
  induction ss generalizing r with
  | nil => rfl
  | cons s ss ih =>
    rw [List.map_cons, List.foldlM_cons, List.foldlM_cons, carry_renumber hf]
    exact bind_shifted fun q => ih q

end Reader

/-- A text is read as items are taken in that are its own but for their numbers. -/
theorem read_of_renumbered (hf : f 0 = 0) {text : String} {is : List Item} (h : itemsOf text = is.map (·.renumber f))
    (strict : Bool) (origin : String) : read strict origin text = shifted f (renumber f)
      (((statements none is).foldlM Reader.carry { strict, script := { origin } }).map (·.script)) := by
  have hstart : ({ strict, script := { origin } } : Reader).renumber f = { strict, script := { origin } } := by
    simp [Reader.renumber, renumber, Topic.renumber, Mode.renumber, hf]
  have hstatements : statementsOf text = (statements none is).map (·.renumber f) := by
    rw [statementsOf, h]
    exact Reader.statements_renumber none is
  rw [read_eq, hstatements, ← hstart, Reader.foldlM_renumber hf, hstart]
  cases (statements none is).foldlM Reader.carry { strict, script := { origin } } <;> rfl

/-- A text whose items are those of another but for their numbers is read like it. -/
theorem read_renumber (hf : f 0 = 0) {old new : String} (h : itemsOf new = (itemsOf old).map (·.renumber f)) (strict : Bool)
    (origin : String) : read strict origin new = shifted f (renumber f) (read strict origin old) := by
  rw [read_of_renumbered hf h, read_eq, statementsOf]

end Script

end Repartee
