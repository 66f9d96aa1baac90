/-
  Repartee.Proofs.Statements.Lines — the lines that items and statements stand on.

  The lines of a text are numbered from one. What a line is part of is told by the lines before it, and
  only lines that are part of neither an object nor a comment are rule lines. Items and statements carry
  the number of the line that they begin on; an object that of the line that opens it.

  Proved:
  - Lines in a row make the items of the first ones and then those of the rest (`items_append`).
  - A rule line stands on the line of its number (`exists_line_of_rule`), and an object has the number of
    the rule line that opens it (`opens_of_mem_items`).
  - Statements come in the order of their lines (`pairwise_line`).
  - A command has the continuations that follow it, up to the next rule line of another mark
    (`command_of_mem_statements`).
  - What has been read has the objects of the text (`objects_of_read`).
-/

import Repartee.Proofs.Joined.Follows
import Repartee.Proofs.Statements

namespace Repartee.Script

open Text

/-- The lines of a text. -/
def linesIn (text : String) : List (List Char) := linesOfPieces (fields (· == '\n') text.toList)

theorem itemsOf_eq (text : String) : itemsOf text = Reader.items .rules 1 (linesIn text) := rfl

/-- The line that an item begins on. -/
def Item.line : Item → Nat
  | .rule c => c.line
  | .object o | .unclosed o => o.line

def Item.object? : Item → Option Object
  | .object o => some o
  | _ => none

/-- The line that a statement begins on. -/
def Statement.line : Statement → Nat
  | .block c | .command c _ => c.line
  | .stray line => line
  | .object o | .unclosed o => o.line

def Statement.object? : Statement → Option Object
  | .object o => some o
  | _ => none

/-- The rule lines of a text. -/
def rulesIn (text : String) : List Command := (itemsOf text).filterMap Item.rule?

/-- The objects of a text that are closed. -/
def objectsIn (text : String) : List Object := (itemsOf text).filterMap Item.object?

namespace Reader

variable {m : Mode} {line : Nat} {raw : List Char} {raws : List (List Char)} {c : Command} {o : Object} {is : List Item}
  {w : Option (Command × List (List Char))} {r r' : Reader}

/-! ## Lines in a row -/

/-- What the line after some lines is part of. -/
def modeAfter (m : Mode) (line : Nat) : List (List Char) → Mode
  | [] => m
  | raw :: raws => modeAfter (lineItems m line raw).2 (line + 1) raws

/-- The items of some lines that others may follow. -/
def itemsIn (m : Mode) (line : Nat) : List (List Char) → List Item
  | [] => []
  | raw :: raws => (lineItems m line raw).1 ++ itemsIn (lineItems m line raw).2 (line + 1) raws

theorem items_eq (m : Mode) (line : Nat) (raws : List (List Char)) :
    items m line raws = itemsIn m line raws ++ lastItems (modeAfter m line raws) := by
  induction raws generalizing m line with
  | nil => rfl
  | cons raw raws ih => rw [items, itemsIn, modeAfter, ih, List.append_assoc]

theorem items_append (m : Mode) (line : Nat) (raws later : List (List Char)) :
    items m line (raws ++ later) = itemsIn m line raws ++ items (modeAfter m line raws) (line + raws.length) later := by
  induction raws generalizing m line with
  | nil => rfl
  | cons raw raws ih =>
    rw [List.cons_append, items, ih, itemsIn, modeAfter, List.append_assoc, List.length_cons, Nat.add_assoc line,
      Nat.add_comm 1]

theorem itemsIn_append (m : Mode) (line : Nat) (raws later : List (List Char)) :
    itemsIn m line (raws ++ later) = itemsIn m line raws ++ itemsIn (modeAfter m line raws) (line + raws.length) later := by
  induction raws generalizing m line with
  | nil => rfl
  | cons raw raws ih =>
    rw [List.cons_append, itemsIn, ih, itemsIn, modeAfter, List.append_assoc, List.length_cons, Nat.add_assoc line,
      Nat.add_comm 1]

theorem modeAfter_append (m : Mode) (line : Nat) (raws later : List (List Char)) :
    modeAfter m line (raws ++ later) = modeAfter (modeAfter m line raws) (line + raws.length) later := by
  induction raws generalizing m line with
  | nil => rfl
  | cons raw raws ih => rw [List.cons_append, modeAfter, ih, modeAfter, List.length_cons, Nat.add_assoc line, Nat.add_comm 1]

theorem rules_ne_object (o : Object) : Mode.rules ≠ .object o := by
  intro h
  cases h

theorem comment_ne_object (o : Object) : Mode.comment ≠ .object o := by
  intro h
  cases h

/-! ## Rule lines and objects in their places -/

theorem exists_of_ruleLine? {cs : List Char} (h : ruleLine? line cs = some c) :
    ∃ rest, cs = c.mark :: rest ∧ c = ⟨c.mark, trim rest, line⟩ := by
  unfold ruleLine? at h
  split at h
  · cases h
  · cases cs with
    | nil => cases h
    | cons mark rest =>
      cases h
      exact ⟨rest, rfl, rfl⟩

/-- A line ends an object or is part of its code, says nothing, or is a rule line. -/
theorem lineItems_cases (m : Mode) (line : Nat) (raw : List Char) :
    (∃ o, m = .object o ∧ closesObject raw = true ∧ lineItems m line raw = ([.object o], .rules)) ∨
    (∃ o, m = .object o ∧ closesObject raw = false ∧
      lineItems m line raw = ([], .object { o with code := o.code ++ .ofList (raw ++ ['\n']) })) ∨
    ((∀ o, m ≠ .object o) ∧ ∃ m', (∀ o, m' ≠ .object o) ∧ lineItems m line raw = ([], m')) ∨
    (m = .rules ∧ ∃ c rest, trim raw = c.mark :: rest ∧ c = ⟨c.mark, trim rest, line⟩ ∧
      lineItems m line raw = ([.rule c], ((object? c).map Mode.object).getD .rules)) := by
  cases m with
  | object o =>
    cases hcloses : closesObject raw with
    | true => exact .inl ⟨o, rfl, rfl, by simp [lineItems, hcloses]⟩
    | false => exact .inr (.inl ⟨o, rfl, rfl, by simp [lineItems, hcloses]⟩)
  | comment =>
    refine .inr (.inr (.inl ⟨comment_ne_object, _, ?_, rfl⟩))
    split
    · exact rules_ne_object
    · exact comment_ne_object
  | rules =>
    cases hrule : ruleLine? line (trim raw) with
    | none =>
      refine .inr (.inr (.inl ⟨rules_ne_object, _, ?_, by rw [lineItems, hrule]⟩))
      split
      · exact comment_ne_object
      · exact rules_ne_object
    | some c =>
      obtain ⟨rest, htrim, hc⟩ := exists_of_ruleLine? hrule
      exact .inr (.inr (.inr ⟨rfl, c, rest, htrim, hc, by rw [lineItems, hrule]⟩))

/-- A rule line stands on the line of its number. -/
theorem exists_line_of_rule (h : Item.rule c ∈ items m line raws) :
    ∃ k raw rest, raws[k]? = some raw ∧ c.line = line + k ∧ trim raw = c.mark :: rest ∧ c.body = trim rest := by
  induction raws generalizing m line with
  | nil =>
    cases m with
    | object o => simp [items, lastItems] at h
    | _ => cases h
  | cons raw raws ih =>
    have hlater : ∀ {m'}, .rule c ∈ items m' (line + 1) raws → ∃ k raw' rest, (raw :: raws)[k]? = some raw' ∧
        c.line = line + k ∧ trim raw' = c.mark :: rest ∧ c.body = trim rest := by
      intro m' h
      obtain ⟨k, raw', rest, hraw, hline, htrim, hbody⟩ := ih h
      exact ⟨k + 1, raw', rest, hraw, by omega, htrim, hbody⟩
    rw [items] at h
    rcases lineItems_cases m line raw with ⟨o, -, -, hitems⟩ | ⟨o, -, -, hitems⟩ | ⟨-, m', -, hitems⟩ |
      ⟨-, d, rest, htrim, hd, hitems⟩ <;> rw [hitems] at h
    · exact hlater ((List.mem_cons.mp h).resolve_left (by simp))
    · exact hlater h
    · exact hlater h
    · rcases List.mem_cons.mp h with heq | h
      · cases heq
        exact ⟨0, raw, rest, rfl, congrArg Command.line hd, htrim, congrArg Command.body hd⟩
      · exact hlater h

/-- An object is opened by its name and its language, after the word for it. -/
theorem object?_eq_some_iff : object? c = some o ↔ c.mark = '>' ∧ ∃ name language more,
    (words c.body).map String.ofList = "object" :: name :: language :: more ∧
      o = { name, language := lowercase language, code := "", line := c.line } := by
  constructor
  · intro h
    have hmark := mark_of_object? h
    refine ⟨hmark, ?_⟩
    simp only [object?, orderOf, hmark, Char.reduceEq, if_false, if_true, openingOf] at h
    split at h
    · next name language horder =>
      split at horder
      · split at horder <;> cases horder
      · next words hwords =>
        split at horder
        · cases horder
          cases h
          exact ⟨_, _, _, hwords, rfl⟩
        · cases horder
      · cases horder
      · cases horder
    · cases h
  · rintro ⟨hmark, name, language, more, hwords, rfl⟩
    simp only [object?, orderOf, hmark, Char.reduceEq, if_false, if_true, openingOf, hwords]

/-- The same object but for its code. -/
def SameObject (o o' : Object) : Prop := o.name = o'.name ∧ o.language = o'.language ∧ o.line = o'.line

/-- An object was open before, or a rule line opens it. -/
theorem opens_of_mem_items (h : Item.object o ∈ items m line raws) :
    (∃ o', m = .object o' ∧ SameObject o o') ∨
      ∃ c o', .rule c ∈ items m line raws ∧ object? c = some o' ∧ SameObject o o' := by
  induction raws generalizing m line with
  | nil =>
    cases m with
    | object o' => simp [items, lastItems] at h
    | _ => cases h
  | cons raw raws ih =>
    rw [items] at h ⊢
    rcases lineItems_cases m line raw with ⟨p, hm, -, hitems⟩ | ⟨p, hm, -, hitems⟩ | ⟨-, m', hm', hitems⟩ |
      ⟨-, d, -, -, -, hitems⟩ <;> rw [hitems] at h ⊢
    · rcases List.mem_cons.mp h with heq | h
      · cases heq
        exact .inl ⟨o, hm, rfl, rfl, rfl⟩
      · obtain ⟨o', ho', -⟩ | ⟨c, o', hc, hopens⟩ := ih h
        · cases ho'
        · exact .inr ⟨c, o', List.mem_cons_of_mem _ hc, hopens⟩
    · obtain ⟨o', ho', hsame⟩ | hlater := ih h
      · cases ho'
        exact .inl ⟨p, hm, hsame⟩
      · exact .inr hlater
    · obtain ⟨o', ho', -⟩ | hlater := ih h
      · exact absurd ho' (hm' o')
      · exact .inr hlater
    · have h := (List.mem_cons.mp h).resolve_left (by simp)
      obtain ⟨o', ho', hsame⟩ | ⟨c, o', hc, hopens⟩ := ih h
      · refine .inr ⟨d, o', List.mem_cons_self, ?_, hsame⟩
        cases hobject : object? d with
        | none => simp [hobject] at ho'
        | some p => simpa [hobject] using ho'
      · exact .inr ⟨c, o', List.mem_cons_of_mem _ hc, hopens⟩

/-! ## The order of statements -/

/-- The earliest line that an item can begin on. -/
def since (line : Nat) : Mode → Nat
  | .object o => o.line
  | _ => line

theorem since_eq (hm : ∀ o, m ≠ .object o) : since line m = line := by
  cases m with
  | object o => exact absurd rfl (hm o)
  | _ => rfl

theorem line_of_object? (h : object? c = some o) : o.line = c.line := by
  unfold object? at h
  split at h
  · cases h
    rfl
  · cases h

theorem since_opened (c : Command) :
    c.line ≤ since (c.line + 1) (((object? c).map Mode.object).getD .rules) ∧
      since (c.line + 1) (((object? c).map Mode.object).getD .rules) ≤ c.line + 1 := by
  cases hobject : object? c with
  | none => exact ⟨Nat.le_succ _, Nat.le_refl _⟩
  | some o =>
    have hline : since (c.line + 1) (.object o) = c.line := line_of_object? hobject
    simp [hline]

/-- Items come in the order of their lines. -/
theorem pairwise_items (h : since line m ≤ line) :
    (∀ i ∈ items m line raws, since line m ≤ i.line) ∧ (items m line raws).Pairwise (·.line ≤ ·.line) := by
  induction raws generalizing m line with
  | nil =>
    cases m with
    | object o => simp [items, lastItems, since, Item.line]
    | _ => exact ⟨List.forall_mem_nil _, .nil⟩
  | cons raw raws ih =>
    rw [items]
    rcases lineItems_cases m line raw with ⟨o, rfl, -, hitems⟩ | ⟨o, rfl, -, hitems⟩ | ⟨hm, m', hm', hitems⟩ |
      ⟨rfl, c, rest, -, hc, hitems⟩ <;> rw [hitems]
    · have hnext : since (line + 1) .rules ≤ line + 1 := Nat.le_refl _
      obtain ⟨hlater, hpairwise⟩ := ih hnext
      have hlate : ∀ i ∈ items .rules (line + 1) raws, o.line ≤ i.line := fun i hi =>
        Nat.le_trans (Nat.le_succ_of_le h) (hlater i hi)
      exact ⟨List.forall_mem_cons.mpr ⟨Nat.le_refl _, hlate⟩, List.pairwise_cons.mpr ⟨hlate, hpairwise⟩⟩
    · exact ih (m := .object { o with code := o.code ++ .ofList (raw ++ ['\n']) }) (Nat.le_succ_of_le h)
    · rw [since_eq hm]
      have hnext : since (line + 1) m' ≤ line + 1 := Nat.le_of_eq (since_eq hm')
      obtain ⟨hlater, hpairwise⟩ := ih hnext
      rw [since_eq hm'] at hlater
      exact ⟨fun i hi => Nat.le_of_succ_le (hlater i hi), hpairwise⟩
    · have hline : c.line = line := congrArg Command.line hc
      obtain ⟨hlow, hhigh⟩ := since_opened c
      rw [hline] at hlow hhigh
      obtain ⟨hlater, hpairwise⟩ := ih hhigh
      have hlate : ∀ i ∈ items (((object? c).map Mode.object).getD .rules) (line + 1) raws, line ≤ i.line := fun i hi =>
        Nat.le_trans hlow (hlater i hi)
      refine ⟨List.forall_mem_cons.mpr ⟨Nat.le_of_eq hline.symm, hlate⟩, List.pairwise_cons.mpr ⟨fun i hi => ?_, hpairwise⟩⟩
      exact Nat.le_trans (Nat.le_of_eq hline) (hlate i hi)

theorem line_waiting (w : Option (Command × List (List Char))) :
    (waiting w).map Statement.line = (w.map (·.1.line)).toList := by
  cases w <;> rfl

theorem heard_line_sublist (w : Option (Command × List (List Char))) (i : Item) :
    ((heard w i).1.map Statement.line ++ ((heard w i).2.map (·.1.line)).toList).Sublist
      ((w.map (·.1.line)).toList ++ [i.line]) := by
  cases i with
  | rule c =>
    simp only [heard]
    by_cases hmark : c.mark = '^'
    · rw [if_pos hmark]
      cases w with
      | none => exact List.Sublist.refl _
      | some v => exact List.sublist_append_left _ _
    · rw [if_neg hmark]
      split
      · simp [line_waiting, Statement.line, Item.line]
      · simp [line_waiting, Item.line]
  | object o => simp [heard, line_waiting, Statement.line, Item.line]
  | unclosed o => simp [heard, line_waiting, Statement.line, Item.line]

/-- Statements begin on the lines of items, in their order. -/
theorem line_sublist (w : Option (Command × List (List Char))) (is : List Item) :
    ((statements w is).map Statement.line).Sublist ((w.map (·.1.line)).toList ++ is.map Item.line) := by
  induction is generalizing w with
  | nil =>
    rw [statements, line_waiting]
    exact List.sublist_append_left _ _
  | cons i is ih =>
    rw [statements, List.map_append, List.map_cons, ← List.singleton_append, ← List.append_assoc]
    refine ((List.Sublist.refl _).append (ih _)).trans ?_
    rw [← List.append_assoc]
    exact (heard_line_sublist w i).append (List.Sublist.refl _)

/-! ## Commands and their continuations -/

/-- The bodies of the continuations that items begin with. -/
def continuations : List Item → List (List Char)
  | .rule c :: is => if c.mark = '^' then c.body :: continuations is else []
  | _ => []

/-- While nothing waits, an item is a statement by itself, or it is a rule line that waits. -/
theorem heard_none_cases (i : Item) :
    (∃ s, (∀ c more, s ≠ .command c more) ∧ heard none i = ([s], none)) ∨
      ∃ c, i = .rule c ∧ heard none i = ([], some (c, [])) := by
  cases i with
  | rule c =>
    simp only [heard]
    by_cases hmark : c.mark = '^'
    · rw [if_pos hmark]
      exact .inl ⟨.stray c.line, by simp, rfl⟩
    · rw [if_neg hmark]
      split
      · exact .inl ⟨.block c, by simp, rfl⟩
      · exact .inr ⟨c, rfl, rfl⟩
  | object o => exact .inl ⟨.object o, by simp, rfl⟩
  | unclosed o => exact .inl ⟨.unclosed o, by simp, rfl⟩

/-- What waits is continued, or it is complete and the item is heard as if nothing had waited. -/
theorem heard_some_cases (c : Command) (more : List (List Char)) (i : Item) :
    (∃ d, i = .rule d ∧ d.mark = '^' ∧ heard (some (c, more)) i = ([], some (c, more ++ [d.body]))) ∨
      ((∀ is, continuations (i :: is) = []) ∧
        heard (some (c, more)) i = (.command c more :: (heard none i).1, (heard none i).2)) := by
  cases i with
  | rule d =>
    simp only [heard]
    by_cases hmark : d.mark = '^'
    · exact .inl ⟨d, rfl, hmark, if_pos hmark⟩
    · refine .inr ⟨fun is => if_neg hmark, ?_⟩
      rw [if_neg hmark, if_neg hmark]
      split <;> rfl
  | _ => exact .inr ⟨fun _ => rfl, rfl⟩

/-- A command was waiting before, or a rule line begins it; the continuations that follow are its own. -/
theorem command_of_mem_statements {more : List (List Char)} (h : .command c more ∈ statements w is) :
    (∃ v, w = some v ∧ c = v.1 ∧ more = v.2 ++ continuations is) ∨
      ∃ before after, is = before ++ .rule c :: after ∧ more = continuations after := by
  induction is generalizing w with
  | nil =>
    cases w with
    | none => cases h
    | some v =>
      cases List.mem_singleton.mp h
      exact .inl ⟨_, rfl, rfl, (List.append_nil _).symm⟩
  | cons i is ih =>
    have hlater : (∃ before after, is = before ++ .rule c :: after ∧ more = continuations after) →
        ∃ before after, i :: is = before ++ .rule c :: after ∧ more = continuations after := by
      rintro ⟨before, after, rfl, hmore⟩
      exact ⟨i :: before, after, rfl, hmore⟩
    have hfresh : .command c more ∈ statements none (i :: is) →
        ∃ before after, i :: is = before ++ .rule c :: after ∧ more = continuations after := by
      intro h
      rw [statements] at h
      rcases heard_none_cases i with ⟨s, hs, hheard⟩ | ⟨d, rfl, hheard⟩
      · rw [hheard] at h
        obtain ⟨v, hv, -⟩ | hrest := ih ((List.mem_cons.mp h).resolve_left fun heq => hs c more heq.symm)
        · cases hv
        · exact hlater hrest
      · rw [hheard] at h
        obtain ⟨v, hv, rfl, hmore⟩ | hrest := ih h
        · cases hv
          exact ⟨[], is, rfl, hmore⟩
        · exact hlater hrest
    cases w with
    | none => exact .inr (hfresh h)
    | some v =>
      obtain ⟨d, before⟩ := v
      rw [statements] at h
      rcases heard_some_cases d before i with ⟨b, rfl, hmark, hheard⟩ | ⟨hnone, hheard⟩
      · rw [hheard] at h
        obtain ⟨v, hv, rfl, hmore⟩ | hrest := ih h
        · cases hv
          refine .inl ⟨_, rfl, rfl, ?_⟩
          rw [hmore, continuations, if_pos hmark, List.append_assoc, List.singleton_append]
        · exact .inr (hlater hrest)
      · rw [hheard, List.cons_append] at h
        rcases List.mem_cons.mp h with heq | h
        · cases heq
          exact .inl ⟨_, rfl, rfl, by rw [hnone, List.append_nil]⟩
        · exact .inr (hfresh h)

/-! ## Objects -/

theorem objects_goOn {index : Nat} {found : Topic × Option String} (h : r.goOn index line found = .ok r') :
    r'.script.objects = r.script.objects := by
  obtain ⟨topic, _ | word⟩ := found
  · cases h
    rfl
  · rw [(complain_eq_ok.mp h).2]
    rfl

theorem objects_openTopic {name : String} {header : List String} (h : r.openTopic name header line = .ok r') :
    r'.script.objects = r.script.objects := by
  obtain ⟨i, -, -, -, hlocate⟩ := exists_locate r (lowercase name) line
  rw [openTopic_eq, hlocate] at h
  have hobjects := objects_goOn h
  exact hobjects

/-- No order adds an object. -/
theorem objects_carryOut {order : Order} (h : r.carryOut line order = .ok r') : r'.script.objects = r.script.objects := by
  cases order with
  | openTopic name header => exact objects_openTopic h
  | attachment mark text =>
    rw [carryOut] at h
    split at h
    · cases h
    · cases h
      rfl
  | impossible fault => cases h
  | odd fault => rw [(complain_eq_ok.mp h).2]
  | _ =>
    cases h
    rfl

theorem objects_act (h : r.act c = .ok r') : r'.script.objects = r.script.objects := by
  rw [act_eq] at h
  split at h
  · cases h
    rfl
  · exact objects_carryOut h

theorem objects_carry {s : Statement} (h : r.carry s = .ok r') :
    r'.script.objects = r.script.objects ++ s.object?.toList := by
  cases s with
  | block c =>
    rw [carry] at h
    split at h
    · cases h
      exact (List.append_nil _).symm
    · rw [objects_act h]
      exact (List.append_nil _).symm
  | command c more =>
    rw [objects_act h]
    exact (List.append_nil _).symm
  | stray line =>
    rw [(complain_eq_ok.mp h).2]
    exact (List.append_nil _).symm
  | object o =>
    cases h
    rfl
  | unclosed o => cases h

theorem objects_foldlM {ss : List Statement} (h : ss.foldlM carry r = .ok r') :
    r'.script.objects = r.script.objects ++ ss.filterMap Statement.object? := by
  induction ss generalizing r with
  | nil =>
    cases h
    exact (List.append_nil _).symm
  | cons s ss ih =>
    rw [List.foldlM_cons] at h
    obtain ⟨q, hq, h⟩ := bind_eq_ok.mp h
    rw [ih h, objects_carry hq, filterMap_cons_toList, List.append_assoc]

theorem object?_waiting (w : Option (Command × List (List Char))) : (waiting w).filterMap Statement.object? = [] := by
  cases w <;> rfl

/-- Statements keep the objects among items. -/
theorem object?_statements (w : Option (Command × List (List Char))) (is : List Item) :
    (statements w is).filterMap Statement.object? = is.filterMap Item.object? := by
  induction is generalizing w with
  | nil => exact object?_waiting w
  | cons i is ih =>
    rw [statements, List.filterMap_append, ih]
    cases i with
    | rule c =>
      have hnone : (heard w (.rule c)).1.filterMap Statement.object? = [] := by
        simp only [heard]
        split
        · cases w <;> rfl
        · split
          · simp [object?_waiting, Statement.object?]
          · exact object?_waiting w
      rw [hnone]
      rfl
    | object o =>
      rw [heard, List.filterMap_append, object?_waiting]
      rfl
    | unclosed o =>
      rw [heard, List.filterMap_append, object?_waiting]
      rfl

end Reader

/-- Statements come in the order of the lines that they begin on. -/
theorem pairwise_line (text : String) : (statementsOf text).Pairwise (·.line ≤ ·.line) := by
  have hstart : Reader.since 1 .rules ≤ 1 := Nat.le_refl _
  have hitems : (itemsOf text).Pairwise (·.line ≤ ·.line) := (Reader.pairwise_items hstart).2
  exact List.pairwise_map.mp ((List.pairwise_map.mpr hitems).sublist (Reader.line_sublist none (itemsOf text)))

/-- What has been read has the objects of the text. -/
theorem objects_of_read {strict : Bool} {origin text : String} {script : Script} (h : read strict origin text = .ok script) :
    script.objects = objectsIn text := by
  rw [read_eq] at h
  obtain ⟨r, hr, rfl⟩ := map_eq_ok.mp h
  rw [Reader.objects_foldlM hr, statementsOf, Reader.object?_statements]
  rfl

end Repartee.Script
