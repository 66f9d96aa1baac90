/-
  Repartee.Proofs.Statements — the statements that a rule text is made of.

  A reader goes through a text line by line and keeps a command back until it knows that no
  continuation follows. What it does is told by the text alone: its lines make items, rule lines and
  whole objects, and the items make statements, commands with their continuations. Comments and
  blank lines are no items. Whether the reader is strict, and which commands stand in begin blocks,
  shows only once statements are carried out.

  Proved:
  - Reading the lines of a text is taking its items in one after another (`readLines_eq`), and that is
    carrying its statements out (`foldlM_takeIn_eq`), so reading a text is carrying its statements out (`read_eq`).
  - Statements begin with rule lines of ascending numbers (`pairwise_first`).
-/

import Mathlib.Data.List.Induction
import Repartee.Proofs.Joined.Lines

namespace Repartee.Script

open Text

/-! ## Items -/

/-- What the lines of a text amount to. -/
inductive Item where
  /-- A rule line, with its mark, the rest of it and its number. -/
  | rule (c : Command)
  | object (o : Object)
  /-- An object that the text ends in. -/
  | unclosed (o : Object)
  deriving DecidableEq

def Item.rule? : Item → Option Command
  | .rule c => some c
  | _ => none

namespace Reader

/-- The rule line that a trimmed line is, unless it is blank or begins a comment. -/
def ruleLine? (line : Nat) (cs : List Char) : Option Command :=
  if startsWith "/*" cs || startsWith "//" cs then none
  else
    match cs with
    | [] => none
    | mark :: rest => some ⟨mark, trim rest, line⟩

def opensComment (cs : List Char) : Bool := startsWith "/*" cs && !endsComment cs

/-- The object that a rule line begins. -/
def object? (c : Command) : Option Object :=
  match orderOf c with
  | .openObject name language => some { name, language, code := "", line := c.line }
  | _ => none

/-- The items of one line that is part of `mode`, and what the next line is part of. -/
def lineItems : Mode → Nat → List Char → List Item × Mode
  | .object o, _, raw =>
    if closesObject raw then ([.object o], .rules)
    else ([], .object { o with code := o.code ++ .ofList (raw ++ ['\n']) })
  | .comment, _, raw => ([], if endsComment (trim raw) then .rules else .comment)
  | .rules, line, raw =>
    match ruleLine? line (trim raw) with
    | none => ([], if opensComment (trim raw) then .comment else .rules)
    | some c => ([.rule c], ((object? c).map Mode.object).getD .rules)

/-- What is left at the end of a text. -/
def lastItems : Mode → List Item
  | .object o => [.unclosed o]
  | _ => []

def items (m : Mode) (line : Nat) : List (List Char) → List Item
  | [] => lastItems m
  | raw :: raws => (lineItems m line raw).1 ++ items (lineItems m line raw).2 (line + 1) raws

end Reader

def itemsOf (text : String) : List Item := Reader.items .rules 1 (linesOfPieces (fields (· == '\n') text.toList))

/-! ## Statements -/

/-- What a reader carries out. -/
inductive Statement where
  /-- A line with the mark `>` or `<`, which is never continued. -/
  | block (c : Command)
  /-- Any other command, with the bodies of its continuations. -/
  | command (c : Command) (more : List (List Char))
  /-- A continuation with nothing to continue. -/
  | stray (line : Nat)
  | object (o : Object)
  | unclosed (o : Object)
  deriving DecidableEq

/-- The rule line that a statement begins with. -/
def Statement.first? : Statement → Option Command
  | .block c | .command c _ => some c
  | _ => none

/-- Block marks are never continued, and no command is a continuation. -/
def Statement.IsProper : Statement → Prop
  | .block c => c.mark = '>' ∨ c.mark = '<'
  | .command c _ => c.mark ≠ '>' ∧ c.mark ≠ '<' ∧ c.mark ≠ '^'
  | _ => True

/-- The statement that waits for continuations, if any. -/
def waiting : Option (Command × List (List Char)) → List Statement
  | none => []
  | some (c, more) => [.command c more]

/-- The statements that an item completes, and the one that waits after it. -/
def heard (w : Option (Command × List (List Char))) : Item → List Statement × Option (Command × List (List Char))
  | .rule c =>
    if c.mark = '^' then
      match w with
      | some (d, more) => ([], some (d, more ++ [c.body]))
      | none => ([.stray c.line], none)
    else if c.mark = '>' ∨ c.mark = '<' then (waiting w ++ [.block c], none)
    else (waiting w, some (c, []))
  | .object o => (waiting w ++ [.object o], none)
  | .unclosed o => (waiting w ++ [.unclosed o], none)

def statements (w : Option (Command × List (List Char))) : List Item → List Statement
  | [] => waiting w
  | i :: is => (heard w i).1 ++ statements (heard w i).2 is

def statementsOf (text : String) : List Statement := statements none (itemsOf text)

/-- What stands between a command and its continuation, if the joiner is in force. -/
def Joiner.between (joiner : Joiner) (c : Command) : List Char :=
  if c.mark = '!' then if c.body.contains '|' then ['|'] else [' '] else joiner.chars

/-- A command with its continuations folded into it. -/
def Joiner.fold (joiner : Joiner) (c : Command) (more : List (List Char)) : Command :=
  more.foldl (fun c body => { c with body := c.body ++ joiner.between c ++ body }) c

namespace Reader

/-- A line that opens an object does nothing by itself: the object is added once it is closed. -/
def carry (r : Reader) : Statement → Except SyntaxError Reader
  | .block c => if (object? c).isSome then .ok r else r.act c
  | .command c more => r.act (r.joiner.fold c more)
  | .stray line => r.complain line .nothingToContinue
  | .object o => .ok { r with script := { r.script with objects := r.script.objects ++ [o] } }
  | .unclosed o => .error ⟨o.line, .unclosedObject o.name⟩

variable {r r' : Reader} {line : Nat} {c : Command} {o : Object} {m : Mode}

/-! ## Modes -/

theorem act_mode (hc : object? c = none) (h : r.act c = .ok r') : r'.mode = r.mode := by
  have hobject : ∀ name language, orderOf c ≠ .openObject name language := by
    intro name language ho
    simp [object?, ho] at hc
  rw [act_eq] at h
  by_cases hpass : r.passesOver c.mark = true
  · rw [if_pos hpass] at h
    cases h
    rfl
  · have hturn := carryOut_turnTo r r.mode r.pending c.line hobject
    rw [if_neg hpass] at h
    change r.carryOut c.line (orderOf c) = _ at hturn
    rw [h] at hturn
    rw [Except.ok.inj hturn]
    rfl

theorem mark_of_object? (hc : object? c = some o) : c.mark = '>' := by
  by_contra hmark
  have hobject := orderOf_ne_openObject hmark
  unfold object? at hc
  split at hc
  · next name language ho => exact hobject name language ho
  · cases hc

theorem act_of_object? (hc : object? c = some o) : r.act c = .ok { r with mode := .object o } := by
  have hpass : ¬ r.passesOver c.mark = true := by simp [passesOver, mark_of_object? hc]
  rw [act_eq, if_neg hpass]
  unfold object? at hc
  split at hc
  · next name language ho =>
    cases hc
    rw [ho]
    rfl
  · cases hc

theorem mode_command (hr : r.Waits) (hc : object? c = none) (h : r.command c = .ok r') : r'.mode = r.mode := by
  obtain ⟨flushed, hflush, h⟩ := bind_eq_ok.mp h
  have hmode := mode_flush hr hflush
  by_cases hblock : c.mark = '>' ∨ c.mark = '<'
  · rw [if_pos hblock] at h
    exact (act_mode hc h).trans hmode
  · rw [if_neg hblock] at h
    cases h
    exact hmode

theorem mode_continueWith {body : List Char} (h : r.continueWith body line = .ok r') : r'.mode = r.mode := by
  unfold continueWith at h
  split at h
  · cases h
    rfl
  · rw [(complain_eq_ok.mp h).2]

/-- What waits is carried out alike, whatever the lines are part of. -/
theorem flush_turnTo_eq (hr : r.Waits) (m : Mode) : (r.turnTo m r.pending).flush = r.flush.map (·.turnTo m none) := by
  cases hp : r.pending with
  | none =>
    rw [flush_idle hp, flush_idle rfl]
    rfl
  | some c =>
    have hflush : r.flush = ({ r with pending := none } : Reader).act c := by rw [flush, hp]
    rw [hflush, ← act_turnTo _ m none (hr c hp)]
    rfl

/-! ## Items are taken in -/

/-- Take in an item, between the lines of objects and comments. -/
def takeIn (r : Reader) : Item → Except SyntaxError Reader
  | .rule c =>
    if (object? c).isSome then r.flush
    else if c.mark = '^' then r.continueWith c.body c.line
    else r.command c
  | .object o => do
    let r ← r.flush
    .ok { r with script := { r.script with objects := r.script.objects ++ [o] } }
  | .unclosed o => do
    let _ ← r.flush
    .error ⟨o.line, .unclosedObject o.name⟩

/-- The script after the command that waits. -/
def ended (r : Reader) : Except SyntaxError Script := r.flush.map (·.script)

/-- A reader between items: in no object or comment, and what waits is not a block mark. -/
structure Between (r : Reader) : Prop where
  mode : r.mode = .rules
  waits : r.Waits

theorem Between.turnTo (h : r.Between) : r.turnTo .rules r.pending = r := by
  rw [Reader.turnTo, ← h.mode]

theorem between_takeIn {i : Item} (hr : r.Between) (h : r.takeIn i = .ok r') : r'.Between := by
  have hflushed : ∀ {q : Reader}, r.flush = .ok q → q.Between := by
    intro q hflush
    refine ⟨(mode_flush hr.waits hflush).trans hr.mode, ?_⟩
    simp [Waits, waits_flush hflush]
  cases i with
  | rule c =>
    rw [takeIn] at h
    by_cases hobject : (object? c).isSome = true
    · rw [if_pos hobject] at h
      exact hflushed h
    · rw [if_neg hobject] at h
      have hnone : object? c = none := by simpa using hobject
      by_cases hmark : c.mark = '^'
      · rw [if_pos hmark] at h
        exact ⟨(mode_continueWith h).trans hr.mode, waits_continueWith hr.waits h⟩
      · rw [if_neg hmark] at h
        exact ⟨(mode_command hr.waits hnone h).trans hr.mode, waits_command h⟩
  | object o =>
    obtain ⟨flushed, hflush, h⟩ := bind_eq_ok.mp h
    cases h
    exact ⟨(hflushed hflush).mode, (hflushed hflush).waits⟩
  | unclosed o =>
    obtain ⟨flushed, hflush, h⟩ := bind_eq_ok.mp h
    cases h

theorem between_foldlM_takeIn {is : List Item} (hr : r.Between) (h : is.foldlM takeIn r = .ok r') : r'.Between :=
  invariant_of_foldlM_eq_ok (fun _ _ _ hq hq' => between_takeIn hq hq') hr h

/-- A rule line, or one that is passed over. -/
theorem ruleLine_eq (hr : r.mode = .rules) (line : Nat) (cs : List Char) :
    r.ruleLine line cs = match ruleLine? line cs with
      | none => .ok (r.turnTo (if opensComment cs then .comment else .rules) r.pending)
      | some c => if c.mark = '^' then r.continueWith c.body c.line else r.command c := by
  unfold ruleLine ruleLine? opensComment
  by_cases hopens : startsWith "/*" cs = true
  · simp only [hopens, if_true, Bool.true_or, Bool.true_and]
    cases endsComment cs <;> rfl
  · have hquiet : r.turnTo .rules r.pending = r := by rw [turnTo, ← hr]
    simp only [hopens, Bool.false_or, Bool.false_and]
    cases cs with
    | nil => simp [hquiet, startsWith, after?]
    | cons mark rest =>
      by_cases hslashes : startsWith "//" (mark :: rest) = true
      · simp [hslashes, hquiet]
      · simp only [hslashes]
        rfl

/-- A physical line is its items taken in, and what the next line is part of. -/
theorem physicalLine_eq (hr : r.Between) (hidle : ∀ o, m = .object o → r.pending = none) (line : Nat) (raw : List Char) :
    (r.turnTo m r.pending).physicalLine line raw =
      ((lineItems m line raw).1.foldlM takeIn r).map fun q => q.turnTo (lineItems m line raw).2 q.pending := by
  cases m with
  | object o =>
    have hnone := hidle o rfl
    by_cases hcloses : closesObject raw = true
    · simp only [lineItems, if_pos hcloses, List.foldlM_cons, List.foldlM_nil, takeIn, flush_idle hnone]
      simp only [physicalLine, turnTo, objectLine, if_pos hcloses]
      rfl
    · simp only [lineItems, if_neg hcloses, List.foldlM_nil]
      simp only [physicalLine, turnTo, objectLine, if_neg hcloses]
      rfl
  | comment =>
    simp only [lineItems, List.foldlM_nil, physicalLine, turnTo]
    by_cases hends : endsComment (trim raw) = true
    · simp only [if_pos hends]
      rfl
    · simp only [if_neg hends]
      rfl
  | rules =>
    rw [hr.turnTo]
    simp only [physicalLine, hr.mode, ruleLine_eq hr.mode, lineItems]
    cases ruleLine? line (trim raw) with
    | none => rfl
    | some c =>
      simp only [List.foldlM_cons, List.foldlM_nil, bind_pure]
      cases hobject : object? c with
      | some o =>
        have hmark := mark_of_object? hobject
        simp only [takeIn, hobject, Option.isSome_some, if_true, command, hmark]
        cases hflush : r.flush with
        | error e => rfl
        | ok flushed =>
          change flushed.act c = .ok (flushed.turnTo (.object o) flushed.pending)
          exact act_of_object? hobject
      | none =>
        have htake : r.takeIn (.rule c) = if c.mark = '^' then r.continueWith c.body c.line else r.command c := by
          simp [takeIn, hobject]
        rw [← htake]
        cases htaken : r.takeIn (.rule c) with
        | error e => rfl
        | ok q => exact congrArg Except.ok (between_takeIn hr htaken).turnTo.symm

/-- Nothing waits while the lines are part of an object. -/
theorem idle_lineItems {raw : List Char} (hidle : ∀ o, m = .object o → r.pending = none)
    (h : (lineItems m line raw).1.foldlM takeIn r = .ok r') : ∀ o, (lineItems m line raw).2 = .object o → r'.pending = none := by
  intro o ho
  cases m with
  | object o' =>
    by_cases hcloses : closesObject raw = true
    · simp [lineItems, hcloses] at ho
    · simp only [lineItems, if_neg hcloses, List.foldlM_nil] at h
      cases h
      exact hidle o' rfl
  | comment =>
    simp only [lineItems] at ho
    split at ho <;> cases ho
  | rules =>
    simp only [lineItems] at h ho
    cases hrule : ruleLine? line (trim raw) with
    | none =>
      simp only [hrule] at ho
      split at ho <;> cases ho
    | some c =>
      cases hobject : object? c with
      | none => simp [hrule, hobject] at ho
      | some o' =>
        simp only [hrule, List.foldlM_cons, List.foldlM_nil, bind_pure, takeIn, hobject, Option.isSome_some, if_true] at h
        exact waits_flush h

/-- At the end of a text an object is left open, or else the script is complete. -/
theorem finish_eq (hr : r.Between) (hidle : ∀ o, m = .object o → r.pending = none) :
    (r.turnTo m r.pending).finish = (lastItems m).foldlM takeIn r >>= ended := by
  unfold finish
  rw [flush_turnTo_eq hr.waits]
  cases m with
  | object o =>
    simp only [lastItems, List.foldlM_cons, takeIn, flush_idle (hidle o rfl)]
    rfl
  | comment =>
    change _ = r.flush.map (·.script)
    cases r.flush with
    | error e => rfl
    | ok r' => rfl
  | rules =>
    change _ = r.flush.map (·.script)
    cases r.flush with
    | error e => rfl
    | ok r' => rfl

/-- Reading lines is taking in their items. -/
theorem readLines_eq {raws : List (List Char)} (hr : r.Between) (hidle : ∀ o, m = .object o → r.pending = none) :
    ((r.turnTo m r.pending).readLines line raws >>= finish) = (items m line raws).foldlM takeIn r >>= ended := by
  induction raws generalizing r m line with
  | nil => exact finish_eq hr hidle
  | cons raw raws ih =>
    rw [readLines, physicalLine_eq hr hidle, items, List.foldlM_append, bind_assoc]
    cases htaken : (lineItems m line raw).1.foldlM takeIn r with
    | error e => rfl
    | ok q => exact ih (between_foldlM_takeIn hr htaken) (idle_lineItems hidle htaken)

/-! ## Statements are carried out -/

theorem pending_carry {s : Statement} (h : r.carry s = .ok r') : r'.pending = r.pending := by
  cases s with
  | block c =>
    rw [carry] at h
    split at h
    · cases h
      rfl
    · exact act_pending h
  | command c more => exact act_pending h
  | stray line => rw [(complain_eq_ok.mp h).2]
  | object o =>
    cases h
    rfl
  | unclosed o => cases h

theorem fold_concat (j : Joiner) (c : Command) (more : List (List Char)) (body : List Char) :
    j.fold c (more ++ [body]) =
      { j.fold c more with body := (j.fold c more).body ++ j.between (j.fold c more) ++ body } := by
  simp [Joiner.fold]

theorem mark_fold (j : Joiner) (c : Command) (more : List (List Char)) :
    (j.fold c more).mark = c.mark ∧ (j.fold c more).line = c.line := by
  induction more using List.reverseRecOn with
  | nil => exact ⟨rfl, rfl⟩
  | append_singleton more body ih =>
    rw [fold_concat]
    exact ih

/-- The reader with a command waiting, as far as it has been continued. -/
def await (r : Reader) (w : Option (Command × List (List Char))) : Reader :=
  { r with pending := w.map fun w => r.joiner.fold w.1 w.2 }

theorem flush_await (hp : r.pending = none) (w : Option (Command × List (List Char))) :
    (r.await w).flush = (waiting w).foldlM carry r := by
  have hidle : ({ r with pending := none } : Reader) = r := by rw [← hp]
  cases w with
  | none =>
    rw [flush_idle rfl, waiting]
    exact congrArg Except.ok hidle
  | some w =>
    simp only [waiting, List.foldlM_cons, List.foldlM_nil, bind_pure, carry]
    change ({ r with pending := none } : Reader).act _ = _
    rw [hidle]

theorem pending_foldlM_carry {ss : List Statement} (hp : r.pending = none) (h : ss.foldlM carry r = .ok r') :
    r'.pending = none :=
  invariant_of_foldlM_eq_ok (fun _ _ _ hq hq' => (pending_carry hq').trans hq) hp h

theorem await_none (hp : r.pending = none) : r.await none = r := by
  change ({ r with pending := none } : Reader) = r
  rw [← hp]

theorem foldlM_flush (hp : r.pending = none) (w : Option (Command × List (List Char))) (s : Statement) :
    ((r.await w).flush >>= fun q => q.carry s) = ((waiting w ++ [s]).foldlM carry r).map (·.await none) := by
  rw [flush_await hp, List.foldlM_append]
  cases hw : (waiting w).foldlM carry r with
  | error e => rfl
  | ok q =>
    change q.carry s = ([s].foldlM carry q).map (·.await none)
    simp only [List.foldlM_cons, List.foldlM_nil, bind_pure]
    cases hs : q.carry s with
    | error e => rfl
    | ok q' => exact congrArg Except.ok (await_none ((pending_carry hs).trans (pending_foldlM_carry hp hw))).symm

/-- An item is taken in by carrying out the statements that it completes. -/
theorem takeIn_await (hp : r.pending = none) (w : Option (Command × List (List Char))) (i : Item) :
    (r.await w).takeIn i = ((heard w i).1.foldlM carry r).map (·.await (heard w i).2) := by
  cases i with
  | object o => exact foldlM_flush hp w (.object o)
  | unclosed o => exact foldlM_flush hp w (.unclosed o)
  | rule c =>
    simp only [takeIn, heard]
    cases hobject : object? c with
    | some o =>
      have hblock := foldlM_flush hp w (.block c)
      simp only [carry, hobject, Option.isSome_some, if_true] at hblock
      simp only [mark_of_object? hobject, Option.isSome_some, if_true, true_or, Char.reduceEq, if_false]
      refine Eq.trans ?_ hblock
      cases (r.await w).flush with
      | error e => rfl
      | ok q => rfl
    | none =>
      simp only [Option.isSome_none, Bool.false_eq_true, if_false]
      by_cases hmark : c.mark = '^'
      · rw [if_pos hmark, if_pos hmark]
        cases w with
        | none =>
          rw [await_none hp, continueWith, hp]
          simp only [List.foldlM_cons, List.foldlM_nil, bind_pure, carry]
          cases hcomplain : r.complain c.line .nothingToContinue with
          | error e => rfl
          | ok q =>
            rw [(complain_eq_ok.mp hcomplain).2]
            exact congrArg Except.ok (await_none hp).symm
        | some w =>
          obtain ⟨d, more⟩ := w
          refine congrArg Except.ok ?_
          simp only [await, Option.map_some, fold_concat]
          rfl
      · rw [if_neg hmark, if_neg hmark, command]
        by_cases hblock : c.mark = '>' ∨ c.mark = '<'
        · have hcarry := foldlM_flush hp w (.block c)
          simp only [carry, hobject, Option.isSome_none, Bool.false_eq_true, if_false] at hcarry
          simp only [if_pos hblock]
          exact hcarry
        · simp only [if_neg hblock, flush_await hp]
          rfl

/-- Taking in items is carrying out the statements that they make. -/
theorem foldlM_takeIn_eq {w : Option (Command × List (List Char))} {is : List Item} (hp : r.pending = none) :
    is.foldlM takeIn (r.await w) >>= ended = ((statements w is).foldlM carry r).map (·.script) := by
  induction is generalizing r w with
  | nil =>
    change (r.await w).flush.map (·.script) = _
    rw [flush_await hp, statements]
  | cons i is ih =>
    rw [List.foldlM_cons, takeIn_await hp, statements, List.foldlM_append]
    cases hheard : (heard w i).1.foldlM carry r with
    | error e => rfl
    | ok q => exact ih (pending_foldlM_carry hp hheard)

/-! ## Rule lines and their numbers -/

theorem line_of_ruleLine? {cs : List Char} (h : ruleLine? line cs = some c) : c.line = line := by
  unfold ruleLine? at h
  split at h
  · cases h
  · split at h
    · cases h
    · cases h
      rfl

theorem filterMap_rule?_lineItems (m : Mode) (line : Nat) (raw : List Char) :
    (lineItems m line raw).1.filterMap Item.rule? = [] ∨
      ∃ c, c.line = line ∧ (lineItems m line raw).1.filterMap Item.rule? = [c] := by
  cases m with
  | object o =>
    left
    by_cases hcloses : closesObject raw = true
    · simp [lineItems, hcloses, Item.rule?]
    · simp [lineItems, hcloses]
  | comment => exact .inl rfl
  | rules =>
    simp only [lineItems]
    cases hrule : ruleLine? line (trim raw) with
    | none => exact .inl rfl
    | some c => exact .inr ⟨c, line_of_ruleLine? hrule, rfl⟩

theorem filterMap_rule?_lastItems (m : Mode) : (lastItems m).filterMap Item.rule? = [] := by
  cases m <;> rfl

theorem le_line_of_mem_items {raws : List (List Char)} (h : c ∈ (items m line raws).filterMap Item.rule?) : line ≤ c.line := by
  induction raws generalizing m line with
  | nil =>
    rw [items, filterMap_rule?_lastItems] at h
    cases h
  | cons raw raws ih =>
    rw [items, List.filterMap_append, List.mem_append] at h
    rcases h with h | h
    · rcases filterMap_rule?_lineItems m line raw with hnil | ⟨d, hd, hsingle⟩
      · rw [hnil] at h
        cases h
      · rw [hsingle] at h
        rw [List.mem_singleton.mp h, hd]
    · have hlater := ih h
      omega

/-- Rule lines come in the order of their numbers. -/
theorem pairwise_rules (m : Mode) (line : Nat) (raws : List (List Char)) :
    ((items m line raws).filterMap Item.rule?).Pairwise (·.line < ·.line) := by
  induction raws generalizing m line with
  | nil =>
    rw [items, filterMap_rule?_lastItems]
    exact .nil
  | cons raw raws ih =>
    rw [items, List.filterMap_append]
    rcases filterMap_rule?_lineItems m line raw with hnil | ⟨c, hc, hsingle⟩
    · rw [hnil]
      exact ih _ _
    · rw [hsingle, List.singleton_append, List.pairwise_cons]
      refine ⟨?_, ih _ _⟩
      intro d hd
      have hlater := le_line_of_mem_items hd
      omega

theorem first_waiting (w : Option (Command × List (List Char))) :
    (waiting w).filterMap Statement.first? = (w.map (·.1)).toList := by
  cases w <;> rfl

theorem heard_first_sublist (w : Option (Command × List (List Char))) (i : Item) :
    ((heard w i).1.filterMap Statement.first? ++ ((heard w i).2.map (·.1)).toList).Sublist
      ((w.map (·.1)).toList ++ i.rule?.toList) := by
  cases i with
  | rule c =>
    simp only [heard, Item.rule?]
    by_cases hmark : c.mark = '^'
    · rw [if_pos hmark]
      cases w with
      | none => exact List.nil_sublist _
      | some w => exact List.sublist_append_left _ _
    · rw [if_neg hmark]
      split
      · simp [first_waiting, Statement.first?]
      · simp [first_waiting]
  | object o => simp [heard, first_waiting, Statement.first?]
  | unclosed o => simp [heard, first_waiting, Statement.first?]

theorem filterMap_cons_toList {α β : Type} (f : α → Option β) (a : α) (as : List α) :
    (a :: as).filterMap f = (f a).toList ++ as.filterMap f := by
  cases h : f a <;> simp [h]

/-- Statements begin with rule lines, in their order. -/
theorem first_sublist (w : Option (Command × List (List Char))) (is : List Item) :
    ((statements w is).filterMap Statement.first?).Sublist ((w.map (·.1)).toList ++ is.filterMap Item.rule?) := by
  induction is generalizing w with
  | nil =>
    rw [statements, first_waiting]
    exact List.sublist_append_left _ _
  | cons i is ih =>
    rw [statements, List.filterMap_append, filterMap_cons_toList, ← List.append_assoc]
    refine ((List.Sublist.refl _).append (ih _)).trans ?_
    rw [← List.append_assoc]
    exact (heard_first_sublist w i).append (List.Sublist.refl _)

theorem isProper_waiting {w : Option (Command × List (List Char))} (hw : ∀ v ∈ w, (Statement.command v.1 v.2).IsProper) :
    ∀ s ∈ waiting w, s.IsProper := by
  intro s hs
  cases w with
  | none => cases hs
  | some v =>
    rw [List.mem_singleton.mp hs]
    exact hw v rfl

theorem isProper_heard {w : Option (Command × List (List Char))} {i : Item}
    (hw : ∀ v ∈ w, (Statement.command v.1 v.2).IsProper) :
    (∀ s ∈ (heard w i).1, s.IsProper) ∧ ∀ v ∈ (heard w i).2, (Statement.command v.1 v.2).IsProper := by
  have hlast : ∀ {s : Statement}, s.IsProper → ∀ t ∈ waiting w ++ [s], t.IsProper := by
    intro s hs t ht
    rcases List.mem_append.mp ht with ht | ht
    · exact isProper_waiting hw t ht
    · rw [List.mem_singleton.mp ht]
      exact hs
  cases i with
  | rule c =>
    simp only [heard]
    by_cases hmark : c.mark = '^'
    · rw [if_pos hmark]
      cases w with
      | none =>
        refine ⟨?_, nofun⟩
        intro s hs
        rw [List.mem_singleton.mp hs]
        trivial
      | some v =>
        refine ⟨?_, ?_⟩
        · intro s hs
          cases hs
        · rintro _ ⟨⟩
          exact hw v rfl
    · rw [if_neg hmark]
      by_cases hblock : c.mark = '>' ∨ c.mark = '<'
      · rw [if_pos hblock]
        exact ⟨hlast hblock, nofun⟩
      · rw [if_neg hblock]
        refine ⟨isProper_waiting hw, ?_⟩
        rintro _ ⟨⟩
        exact ⟨fun h => hblock (.inl h), fun h => hblock (.inr h), hmark⟩
  | object o => exact ⟨hlast trivial, nofun⟩
  | unclosed o => exact ⟨hlast trivial, nofun⟩

theorem isProper_statements {w : Option (Command × List (List Char))} {is : List Item}
    (hw : ∀ v ∈ w, (Statement.command v.1 v.2).IsProper) : ∀ s ∈ statements w is, s.IsProper := by
  induction is generalizing w with
  | nil => exact isProper_waiting hw
  | cons i is ih =>
    intro s hs
    obtain ⟨hheard, hnext⟩ := isProper_heard (i := i) hw
    rcases List.mem_append.mp hs with hs | hs
    · exact hheard s hs
    · exact ih hnext s hs

end Reader

/-- Reading a text is carrying out its statements. -/
theorem read_eq (strict : Bool) (origin text : String) :
    read strict origin text =
      ((statementsOf text).foldlM Reader.carry { strict, script := { origin } }).map (·.script) := by
  have hstart : ({ strict, script := { origin } } : Reader).Between := ⟨rfl, nofun⟩
  rw [statementsOf, ← Reader.foldlM_takeIn_eq rfl, itemsOf]
  exact Reader.readLines_eq (m := .rules) hstart nofun

/-- The statements of a text begin with rule lines of ascending numbers. -/
theorem pairwise_first (text : String) : ((statementsOf text).filterMap Statement.first?).Pairwise (·.line < ·.line) :=
  (Reader.pairwise_rules _ _ _).sublist (Reader.first_sublist none _)

theorem isProper_of_mem_statementsOf {text : String} {s : Statement} (h : s ∈ statementsOf text) : s.IsProper :=
  Reader.isProper_statements (w := none) nofun s h

end Repartee.Script
