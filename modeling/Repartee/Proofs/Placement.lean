/-
  Repartee.Proofs.Placement — where the lines of a text are placed.

  The statements of a text come to a stance: whether a begin block is open, what stands between
  continued lines, and which topic is open. A topic line opens its topic unless a word in its header
  is astray, which a strict reader refuses and a lenient one passes over, and the line with it. A line
  that belongs to a trigger goes to the last trigger of the open topic, wherever that was declared.

  Proved:
  - Placed lines are told apart by their numbers, which ascend (`pairwise_placedIn`, `eq_of_number`).
  - A reader that carries a statement out keeps to the stance and files the line that the statement places
    (`keeps_carry`), and so does one that carries out all statements (`keeps_foldlM`).
  - What is read has been filed as it was placed (`exists_keeps_of_read`).
-/

import Mathlib.Data.List.Chain
import Mathlib.Data.List.Nodup
import Repartee.Proofs.Joined.Follows
import Repartee.Proofs.Statements

namespace Repartee.Script

open Text

/-! ## Stances -/

/-- What statements come to. -/
structure Stance where
  inBegin : Bool := false
  joiner : Joiner := .nothing
  /-- The name of the open topic. -/
  topic : String := homeTopic

/-- Whether a topic header has a word before its edges. -/
def isStray (header : List String) : Bool := header.head?.any fun w => w ≠ "includes" && w ≠ "inherits"

namespace Stance

/-- The command that a statement is, complete. -/
def command? (st : Stance) : Statement → Option Command
  | .block c => some c
  | .command c more => some (st.joiner.fold c more)
  | _ => none

/-- Whether commands of this mark are passed over. -/
def passesOver (st : Stance) (mark : Char) : Bool := st.inBegin && mark ≠ '<' && mark ≠ '>'

/-- The order that a statement gives, and its line. -/
def order? (st : Stance) (s : Statement) : Option (Nat × Order) :=
  ((st.command? s).filter (!st.passesOver ·.mark)).map fun c => (c.line, Reader.orderOf c)

def obey (st : Stance) : Order → Stance
  | .joiner joiner => { st with joiner }
  | .openBegin => { st with inBegin := true }
  | .closeBegin => { st with inBegin := false }
  | .openTopic name header => if isStray header then st else { st with topic := lowercase name }
  | .closeTopic => { st with topic := homeTopic }
  | _ => st

def after (st : Stance) (s : Statement) : Stance :=
  match st.order? s with
  | some (_, o) => st.obey o
  | none => st

end Stance

def stanceAfter (ss : List Statement) : Stance := ss.foldl Stance.after {}

/-! ## Placed lines -/

/-- A line that declares a trigger or belongs to one, and the topic that is open where it stands. -/
structure Placed where
  topic : String
  mark : Char
  line : Line
  deriving DecidableEq

def Order.placed? (topic : String) (line : Nat) : Order → Option Placed
  | .trigger text => some ⟨topic, '+', ⟨text, line⟩⟩
  | .attachment mark text => some ⟨topic, mark, ⟨text, line⟩⟩
  | _ => none

def Stance.placed? (st : Stance) (s : Statement) : Option Placed :=
  (st.order? s).bind fun o => o.2.placed? st.topic o.1

def placedFrom (st : Stance) : List Statement → List Placed
  | [] => []
  | s :: ss => (st.placed? s).toList ++ placedFrom (st.after s) ss

def placedIn (text : String) : List Placed := placedFrom {} (statementsOf text)

/-- A line that declares a trigger, and lines that belong to it. -/
structure Group where
  head : Placed
  own : List Placed

def Group.lines (g : Group) : List Placed := g.head :: g.own

/-- The trigger of a group: the last `%` and the last `@` line count, and all others in their order. -/
def Group.trigger (g : Group) : Trigger :=
  { pattern := g.head.line
    previous := (g.own.filter (·.mark = '%')).getLast?.map (·.line)
    replies := (g.own.filter (·.mark = '-')).map (·.line)
    conditions := (g.own.filter (·.mark = '*')).map (·.line)
    redirect := (g.own.filter (·.mark = '@')).getLast?.map (·.line) }

/-- Lines in groups, each from a line that declares a trigger up to the next. -/
def grouped : List Placed → List Group
  | [] => []
  | l :: ls => if l.mark = '+' then ⟨l, ls.takeWhile (·.mark ≠ '+')⟩ :: grouped ls else grouped ls

/-- The triggers of the lines that are placed in a topic. -/
def triggersIn (name : String) (ls : List Placed) : List Trigger :=
  (grouped (ls.filter (·.topic = name))).map Group.trigger

theorem placedFrom_append (st : Stance) (ss later : List Statement) :
    placedFrom st (ss ++ later) = placedFrom st ss ++ placedFrom (ss.foldl Stance.after st) later := by
  induction ss generalizing st with
  | nil => rfl
  | cons s ss ih => rw [List.cons_append, placedFrom, ih, placedFrom, List.foldl_cons, List.append_assoc]

theorem isAttachment_iff {mark : Char} :
    Reader.isAttachment mark = true ↔ mark = '-' ∨ mark = '*' ∨ mark = '%' ∨ mark = '@' := by
  simp [Reader.isAttachment, or_assoc]

theorem attachment_ne_plus {mark : Char} (h : Reader.isAttachment mark = true) : mark ≠ '+' := by
  rcases isAttachment_iff.mp h with rfl | rfl | rfl | rfl <;> decide

namespace Reader

theorem placed?_definitionOf (body : List Char) (topic : String) (line : Nat) :
    (definitionOf body).placed? topic line = none := by
  simp only [definitionOf]
  repeat' split
  all_goals rfl

theorem placed?_openingOf (body : List Char) (topic : String) (line : Nat) :
    (openingOf body).placed? topic line = none := by
  rw [openingOf]
  repeat' split
  all_goals rfl

theorem placed?_closingOf (body : List Char) (topic : String) (line : Nat) :
    (closingOf body).placed? topic line = none := by
  rw [closingOf]
  split <;> rfl

/-- Only lines of triggers are placed, with the mark and the body of their command. -/
theorem placed?_orderOf {c : Command} {topic : String} {l : Placed} (h : (orderOf c).placed? topic c.line = some l) :
    l = ⟨topic, c.mark, ⟨.ofList c.body, c.line⟩⟩ ∧ (l.mark = '+' ∨ isAttachment l.mark = true) := by
  unfold orderOf at h
  split at h
  · rw [placed?_definitionOf] at h
    cases h
  · split at h
    · rw [placed?_openingOf] at h
      cases h
    · split at h
      · rw [placed?_closingOf] at h
        cases h
      · split at h
        · next hplus =>
          split at h
          · cases h
          · cases h
            exact ⟨by rw [hplus], .inl rfl⟩
        · split at h
          · next hmark =>
            cases h
            exact ⟨rfl, .inr hmark⟩
          · cases h

theorem mark_of_orderOf {c : Command} {mark : Char} {text : String} (h : orderOf c = .attachment mark text) :
    isAttachment mark = true := by
  have hplaced : (orderOf c).placed? "" c.line = some ⟨"", mark, ⟨text, c.line⟩⟩ := by rw [h, Order.placed?]
  obtain ⟨heq, hplus | hmark⟩ := placed?_orderOf hplaced
  · -- A command with the mark of a trigger declares one.
    have hc : c.mark = '+' := (congrArg Placed.mark heq).symm.trans hplus
    simp only [orderOf, hc, Char.reduceEq, if_false, if_true] at h
    split at h <;> cases h
  · exact hmark

end Reader

/-- A line that belongs to a trigger is added to the lines that it has. -/
theorem attach_trigger {l : Placed} (hl : Reader.isAttachment l.mark = true) (head : Placed) (own : List Placed) :
    Reader.attach l.mark l.line (Group.trigger ⟨head, own⟩) = Group.trigger ⟨head, own ++ [l]⟩ := by
  simp only [Reader.attach, Group.trigger, List.filter_append, List.filter_singleton]
  rcases isAttachment_iff.mp hl with h | h | h | h <;> simp [h]

theorem grouped_concat_trigger {l : Placed} (hl : l.mark = '+') (ls : List Placed) :
    grouped (ls ++ [l]) = grouped ls ++ [⟨l, []⟩] := by
  induction ls with
  | nil => simp [grouped, hl]
  | cons m ms ih =>
    have hstop : (ms ++ [l]).takeWhile (·.mark ≠ '+') = ms.takeWhile (·.mark ≠ '+') := by
      rw [List.takeWhile_append]
      split
      · next hall =>
        rw [(List.takeWhile_sublist _).eq_of_length hall, List.takeWhile_cons_of_neg (by simp [hl]), List.append_nil]
      · rfl
    rw [List.cons_append, grouped, grouped, ih, hstop]
    split
    · rfl
    · rfl

theorem head_grouped (ls : List Placed) : (grouped ls).map (·.head) = ls.filter (·.mark = '+') := by
  induction ls with
  | nil => rfl
  | cons l ls ih =>
    rw [grouped]
    by_cases hl : l.mark = '+'
    · rw [if_pos hl, List.filter_cons_of_pos (by simpa using hl), List.map_cons, ih]
    · rw [if_neg hl, List.filter_cons_of_neg (by simpa using hl), ih]

theorem grouped_eq_nil_iff {ls : List Placed} : grouped ls = [] ↔ ∀ l ∈ ls, l.mark ≠ '+' := by
  rw [← List.map_eq_nil_iff, head_grouped, List.filter_eq_nil_iff]
  simp

theorem editLast_cons {f : Trigger → Trigger} {t : Trigger} {ts : List Trigger} (h : ts ≠ []) :
    Reader.editLast f (t :: ts) = t :: Reader.editLast f ts := by
  obtain ⟨start, last, rfl⟩ := (List.eq_nil_or_concat ts).resolve_left h
  rw [List.concat_eq_append, ← List.cons_append, Reader.editLast_concat, Reader.editLast_concat, List.cons_append]

theorem triggers_concat_attachment {l : Placed} (hl : Reader.isAttachment l.mark = true) (ls : List Placed) :
    (grouped (ls ++ [l])).map Group.trigger =
      Reader.editLast (Reader.attach l.mark l.line) ((grouped ls).map Group.trigger) := by
  have hplus := attachment_ne_plus hl
  induction ls with
  | nil => simp [grouped, hplus, Reader.editLast]
  | cons m ms ih =>
    rw [List.cons_append, grouped, grouped]
    by_cases hm : m.mark = '+'
    · rw [if_pos hm, if_pos hm, List.map_cons, List.map_cons, ih]
      by_cases hlast : ∀ n ∈ ms, n.mark ≠ '+'
      · -- The line belongs to `m`, which declares the last trigger.
        have hall : ∀ n ∈ ms, decide (n.mark ≠ '+') = true := fun n hn => decide_eq_true (hlast n hn)
        have hown : (ms ++ [l]).takeWhile (·.mark ≠ '+') = ms.takeWhile (·.mark ≠ '+') ++ [l] := by
          rw [List.takeWhile_append_of_pos hall, List.takeWhile_eq_self_iff.mpr hall]
          simp [hplus]
        rw [grouped_eq_nil_iff.mpr hlast, hown, ← attach_trigger hl]
        rfl
      · -- A later line declares it.
        have hown : (ms ++ [l]).takeWhile (·.mark ≠ '+') = ms.takeWhile (·.mark ≠ '+') := by
          rw [List.takeWhile_append, if_neg]
          intro hall
          apply hlast
          intro n hn
          rw [← (List.takeWhile_sublist _).eq_of_length hall] at hn
          have hmark := List.mem_takeWhile_imp (p := fun n : Placed => decide (n.mark ≠ '+')) hn
          exact of_decide_eq_true hmark
        have hne : (grouped ms).map Group.trigger ≠ [] := by
          rw [ne_eq, List.map_eq_nil_iff, grouped_eq_nil_iff]
          exact hlast
        rw [hown, editLast_cons hne]
    · rw [if_neg hm, if_neg hm]
      exact ih

/-- A topic has the triggers whose lines are placed in it. -/
theorem exists_trigger_iff {name : String} {ls : List Placed} {pattern : Line} :
    (∃ t ∈ triggersIn name ls, t.pattern = pattern) ↔ ∃ l ∈ ls, l.mark = '+' ∧ l.topic = name ∧ l.line = pattern := by
  have hheads : (∃ g ∈ grouped (ls.filter (·.topic = name)), g.head.line = pattern) ↔
      pattern ∈ ((ls.filter (·.topic = name)).filter (·.mark = '+')).map (·.line) := by
    rw [← head_grouped, List.map_map, List.mem_map]
    rfl
  simpa [triggersIn, and_assoc, Group.trigger] using hheads

namespace Stance

variable {st : Stance} {s : Statement} {c : Command}

theorem exists_of_order? {o : Nat × Order} (h : st.order? s = some o) :
    ∃ c, st.command? s = some c ∧ st.passesOver c.mark = false ∧ o = (c.line, Reader.orderOf c) := by
  obtain ⟨c, hc, rfl⟩ := Option.map_eq_some_iff.mp h
  obtain ⟨hc, hpass⟩ := Option.filter_eq_some_iff.mp hc
  exact ⟨c, hc, by simpa using hpass, rfl⟩

theorem order?_of_command? (hc : st.command? s = some c) (hpass : st.passesOver c.mark = false) :
    st.order? s = some (c.line, Reader.orderOf c) := by
  simp [order?, hc, Option.filter, hpass]

theorem line_of_command? (hc : st.command? s = some c) : s.first?.map (·.line) = some c.line := by
  cases s with
  | block d =>
    cases hc
    rfl
  | command d more =>
    cases hc
    rw [(Reader.mark_fold st.joiner d more).2]
    rfl
  | _ => cases hc

theorem exists_of_placed? {l : Placed} (h : st.placed? s = some l) :
    ∃ c, st.command? s = some c ∧ (Reader.orderOf c).placed? st.topic c.line = some l := by
  obtain ⟨o, ho, hl⟩ := Option.bind_eq_some_iff.mp h
  obtain ⟨c, hc, -, rfl⟩ := exists_of_order? ho
  exact ⟨c, hc, hl⟩

/-- A line is placed under its number. -/
theorem number_of_placed? {l : Placed} (h : st.placed? s = some l) : s.first?.map (·.line) = some l.line.number := by
  obtain ⟨c, hc, hl⟩ := exists_of_placed? h
  obtain ⟨rfl, -⟩ := Reader.placed?_orderOf hl
  exact line_of_command? hc

end Stance

theorem numbers_placedFrom_sublist (st : Stance) (ss : List Statement) :
    ((placedFrom st ss).map (·.line.number)).Sublist ((ss.filterMap Statement.first?).map (·.line)) := by
  induction ss generalizing st with
  | nil => exact List.nil_sublist _
  | cons s ss ih =>
    rw [placedFrom, List.map_append, Reader.filterMap_cons_toList, List.map_append]
    refine List.Sublist.append ?_ (ih _)
    cases hplaced : st.placed? s with
    | none => exact List.nil_sublist _
    | some l =>
      obtain ⟨c, hc, hline⟩ := Option.map_eq_some_iff.mp (Stance.number_of_placed? hplaced)
      rw [hc]
      simp [hline]

theorem exists_of_mem_placedFrom {st : Stance} {ss : List Statement} {l : Placed} (h : l ∈ placedFrom st ss) :
    ∃ st' : Stance, ∃ s ∈ ss, st'.placed? s = some l := by
  induction ss generalizing st with
  | nil => cases h
  | cons s ss ih =>
    rcases List.mem_append.mp h with h | h
    · exact ⟨st, s, List.mem_cons_self, Option.mem_toList.mp h⟩
    · obtain ⟨st', s', hs', hplaced⟩ := ih h
      exact ⟨st', s', List.mem_cons_of_mem _ hs', hplaced⟩

theorem placedIn_eq {text : String} {before later : List Statement} {s : Statement} {l : Placed}
    (hsplit : statementsOf text = before ++ s :: later) (hl : (stanceAfter before).placed? s = some l) :
    placedIn text = placedFrom {} before ++ l :: placedFrom ((stanceAfter before).after s) later := by
  rw [stanceAfter] at hl ⊢
  rw [placedIn, hsplit, placedFrom_append, placedFrom, hl, Option.toList_some, List.singleton_append]

/-- The placed lines of a text have ascending numbers. -/
theorem pairwise_placedIn (text : String) : ((placedIn text).map (·.line.number)).Pairwise (· < ·) :=
  (List.pairwise_map.mpr (pairwise_first text)).sublist (numbers_placedFrom_sublist {} _)

/-- A placed line is told by its number. -/
theorem eq_of_number {text : String} {l m : Placed} (hl : l ∈ placedIn text) (hm : m ∈ placedIn text)
    (h : l.line.number = m.line.number) : l = m :=
  List.inj_on_of_nodup_map ((pairwise_placedIn text).imp fun hlt => Nat.ne_of_lt hlt) hl hm h

/-! ## A reader keeps to the stance -/

namespace Reader

variable {strict : Bool} {st : Stance} {ls : List Placed} {r r' : Reader} {line : Nat} {o : Order} {s : Statement} {ss : List Statement}

/-- The reader is where the stance says, and has filed the lines under the topics that they are placed in. -/
structure Keeps (strict : Bool) (st : Stance) (ls : List Placed) (r : Reader) : Prop where
  strict : r.strict = strict
  inBegin : r.inBegin = st.inBegin
  joiner : r.joiner = st.joiner
  current : (r.script.topics.map (·.name))[r.current]? = some st.topic
  tidy : Tidy r.script.topics
  known : ∀ l ∈ ls, l.topic ∈ r.script.topics.map (·.name)
  triggers : ∀ t ∈ r.script.topics, t.triggers = triggersIn t.name ls
  begun : ∀ name, ∀ l ∈ (ls.filter (·.topic = name)).head?, l.mark = '+'

theorem triggersIn_concat_ne {name : String} {l : Placed} (h : l.topic ≠ name) (ls : List Placed) :
    triggersIn name (ls ++ [l]) = triggersIn name ls := by
  rw [triggersIn, List.filter_append, List.filter_cons_of_neg (by simpa using h), List.filter_nil, List.append_nil]
  rfl

theorem triggersIn_concat_trigger {l : Placed} (hl : l.mark = '+') (ls : List Placed) :
    triggersIn l.topic (ls ++ [l]) = triggersIn l.topic ls ++ [{ pattern := l.line }] := by
  rw [triggersIn, List.filter_append, List.filter_cons_of_pos (by simp), List.filter_nil, grouped_concat_trigger hl,
    List.map_append]
  rfl

theorem triggersIn_concat_attachment {l : Placed} (hl : isAttachment l.mark = true) (ls : List Placed) :
    triggersIn l.topic (ls ++ [l]) = editLast (attach l.mark l.line) (triggersIn l.topic ls) := by
  rw [triggersIn, List.filter_append, List.filter_cons_of_pos (by simp), List.filter_nil,
    triggers_concat_attachment hl]
  rfl

theorem triggers_currentTopic (h : Keeps strict st ls r) : r.currentTopic.triggers = triggersIn st.topic ls := by
  obtain ⟨t, ht, htopic⟩ := Option.map_eq_some_iff.mp (List.getElem?_map ▸ h.current)
  rw [currentTopic, List.getD_eq_getElem?_getD, ht, Option.getD_some, ← htopic]
  exact h.triggers t (List.mem_of_getElem? ht)

/-- A line is placed by an edit of the open topic. -/
theorem keeps_editTopic (h : Keeps strict st ls r) {l : Placed} {f : Topic → Topic} (hl : l.topic = st.topic)
    (hbegun : l.mark = '+' ∨ ls.filter (·.topic = l.topic) ≠ []) (hname : ∀ t, (f t).name = t.name)
    (hf : ∀ t, t.name = l.topic → t.triggers = triggersIn l.topic ls → (f t).triggers = triggersIn l.topic (ls ++ [l])) :
    Keeps strict st (ls ++ [l]) (r.editTopic r.current f) := by
  obtain ⟨t, ht, htopic⟩ := Option.map_eq_some_iff.mp (List.getElem?_map ▸ h.current)
  have hnames : (r.editTopic r.current f).script.topics.map (·.name) = r.script.topics.map (·.name) :=
    map_name_modify ht (hname t)
  refine ⟨h.strict, h.inBegin, h.joiner, ?_, h.tidy.modify ht (hname t), ?_, ?_, ?_⟩
  · rw [hnames]
    exact h.current
  · rw [hnames]
    intro m hm
    rcases List.mem_append.mp hm with hm | hm
    · exact h.known m hm
    · obtain rfl := List.mem_singleton.mp hm
      rw [hl, ← htopic]
      exact List.mem_map_of_mem (List.mem_of_getElem? ht)
  · intro u hu
    obtain ⟨k, hk⟩ := List.mem_iff_getElem?.mp hu
    obtain ⟨v, hv, ⟨rfl, rfl⟩ | ⟨hne, rfl⟩⟩ := exists_of_getElem?_modify hk
    · cases ht.symm.trans hv
      have hplace : t.name = l.topic := htopic.trans hl.symm
      rw [hname, hplace]
      refine hf t hplace ?_
      rw [← hplace]
      exact h.triggers t (List.mem_of_getElem? ht)
    · have hother : l.topic ≠ u.name := by
        intro heq
        exact hne (h.tidy.once ht hv (htopic.trans (hl.symm.trans heq)))
      rw [triggersIn_concat_ne hother]
      exact h.triggers u (List.mem_of_getElem? hv)
  · intro name m hm
    rw [List.filter_append, List.filter_singleton] at hm
    by_cases hplace : l.topic = name
    · subst hplace
      rcases hbegun with hplus | hne
      · cases hls : ls.filter (·.topic = l.topic) with
        | nil =>
          rw [hls] at hm
          obtain rfl : l = m := by simpa using hm
          exact hplus
        | cons n ns =>
          rw [hls] at hm
          exact h.begun l.topic m (by rw [hls]; exact hm)
      · obtain ⟨n, ns, hls⟩ := List.exists_cons_of_ne_nil hne
        rw [hls] at hm
        exact h.begun l.topic m (by rw [hls]; exact hm)
    · exact h.begun name m (by simpa [hplace] using hm)

/-- A topic may get edges, but no lines, without a reader noticing. -/
theorem keeps_replace (h : Keeps strict st ls r) {i : Nat} {t u : Topic} (ht : r.script.topics[i]? = some t)
    (hname : u.name = t.name) (htriggers : u.triggers = t.triggers) : Keeps strict st ls (r.editTopic i fun _ => u) := by
  have hnames : (r.editTopic i fun _ => u).script.topics.map (·.name) = r.script.topics.map (·.name) :=
    map_name_modify ht hname
  refine ⟨h.strict, h.inBegin, h.joiner, ?_, h.tidy.modify ht hname, ?_, ?_, ?_⟩
  · rw [hnames]
    exact h.current
  · rw [hnames]
    exact h.known
  · intro v hv
    obtain ⟨k, hk⟩ := List.mem_iff_getElem?.mp hv
    obtain ⟨w, hw, ⟨rfl, rfl⟩ | ⟨-, rfl⟩⟩ := exists_of_getElem?_modify hk
    · cases ht.symm.trans hw
      rw [hname, htriggers]
      exact h.triggers t (List.mem_of_getElem? ht)
    · exact h.triggers v (List.mem_of_getElem? hw)
  · exact h.begun

/-- No line is placed in a topic before it is opened. -/
theorem keeps_withName (h : Keeps strict st ls r) (name : String) (line : Nat) :
    Keeps strict st ls { r with script := { r.script with topics := withName r.script.topics name line } } := by
  refine ⟨h.strict, h.inBegin, h.joiner, nameAt_withName h.current name line, h.tidy.withName name line, ?_, ?_, ?_⟩
  · intro l hl
    exact (mem_names_withName line).mpr (.inl (h.known l hl))
  · intro t ht
    unfold withName at ht
    split at ht
    · exact h.triggers t ht
    · next hnew =>
      rcases List.mem_append.mp ht with ht | ht
      · exact h.triggers t ht
      · have hnone : ls.filter (·.topic = name) = [] := by
          rw [List.filter_eq_nil_iff]
          intro l hl htopic
          rw [decide_eq_true_eq] at htopic
          exact hnew (any_name_iff.mpr (htopic ▸ h.known l hl))
        rw [List.mem_singleton.mp ht, triggersIn, hnone]
        rfl
  · exact h.begun

theorem triggers_readEdges (t : Topic) (edge : Option Edge) (ws : List String) :
    (readEdges t edge ws).1.triggers = t.triggers :=
  readEdges_same (fun e _ _ => by cases e <;> rfl) t edge ws

/-- Once the edges of a header have begun, no word is astray. -/
theorem stray_readEdges_some (t : Topic) (e : Edge) (ws : List String) : (readEdges t (some e) ws).2 = none := by
  induction ws generalizing t e with
  | nil => rfl
  | cons w ws ih =>
    rw [readEdges_cons]
    split
    · exact ih t _
    · split
      · exact ih t _
      · exact ih _ _

theorem stray_readEdges_none (t : Topic) (header : List String) :
    (readEdges t none header).2.isSome = isStray header := by
  cases header with
  | nil => rfl
  | cons w ws =>
    rw [readEdges_cons, isStray]
    by_cases hincludes : w = "includes"
    · simp [hincludes, stray_readEdges_some]
    · by_cases hinherits : w = "inherits"
      · simp [hinherits, stray_readEdges_some]
      · simp [hincludes, hinherits]

/-- A topic line opens its topic, unless a word in its header is astray. -/
theorem keeps_openTopic (h : Keeps strict st ls r) {name : String} {header : List String}
    (hr : r.openTopic name header line = .ok r') :
    (isStray header = true → strict = false) ∧ Keeps strict (st.obey (.openTopic name header)) ls r' := by
  obtain ⟨i, t, ht, hname, hlocate⟩ := exists_locate r (lowercase name) line
  have hnamed := keeps_withName h (lowercase name) line
  have hstray := stray_readEdges_none t header
  have hkept := keeps_replace hnamed ht (name_readEdges t none header) (triggers_readEdges t none header)
  have hcurrent := name_editTopic (r := { r with script := { r.script with topics := withName r.script.topics (lowercase name) line } })
    (f := fun _ => (readEdges t none header).1) ht (name_readEdges t none header)
  rw [openTopic_eq, hlocate] at hr
  simp only [List.getD_eq_getElem?_getD, ht, Option.getD_some] at hr
  generalize readEdges t none header = found at hr hstray hkept hcurrent
  obtain ⟨topic, stray⟩ := found
  cases stray with
  | some word =>
    obtain ⟨hstrict, rfl⟩ := complain_eq_ok.mp hr
    simp only [Stance.obey, ← hstray, Option.isSome_some, if_true]
    exact ⟨fun _ => hkept.strict.symm.trans hstrict, hkept⟩
  | none =>
    cases hr
    simp only [Stance.obey, ← hstray, Option.isSome_none, Bool.false_eq_true, if_false]
    refine ⟨nofun, { hkept with current := ?_ }⟩
    rw [hname] at hcurrent
    exact hcurrent

theorem keeps_unplaced (h : Keeps strict st ls r) : Keeps strict st (ls ++ (none : Option Placed).toList) r := by
  rw [Option.toList_none, List.append_nil]
  exact h

/-- A reader that carries an order out keeps to the stance. -/
theorem keeps_carryOut (h : Keeps strict st ls r) (ho : ∀ mark text, o = .attachment mark text → isAttachment mark = true)
    (hr : r.carryOut line o = .ok r') : Keeps strict (st.obey o) (ls ++ (o.placed? st.topic line).toList) r' := by
  cases o with
  | trigger text =>
    cases hr
    refine keeps_editTopic h (l := ⟨st.topic, '+', ⟨text, line⟩⟩) rfl (.inl rfl) (fun _ => rfl) ?_
    intro t _ htriggers
    rw [triggersIn_concat_trigger rfl, ← htriggers]
  | attachment mark text =>
    have hmark := ho mark text rfl
    rw [carryOut] at hr
    split at hr
    · cases hr
    · next hsome =>
      cases hr
      have hne : ls.filter (·.topic = st.topic) ≠ [] := by
        intro hnil
        rw [triggers_currentTopic h, triggersIn, hnil] at hsome
        exact hsome rfl
      refine keeps_editTopic h (l := ⟨st.topic, mark, ⟨text, line⟩⟩) rfl (.inr hne) (fun _ => rfl) ?_
      intro t _ htriggers
      rw [triggersIn_concat_attachment hmark, ← htriggers]
  | openTopic name header => exact keeps_unplaced (keeps_openTopic h hr).2
  | closeTopic =>
    cases hr
    obtain ⟨t, ht, hhome⟩ := h.tidy.home
    refine keeps_unplaced { h with current := ?_ }
    show (r.script.topics.map (·.name))[0]? = some homeTopic
    rw [List.getElem?_map, ht, Option.map_some, hhome]
  | odd fault =>
    rw [(complain_eq_ok.mp hr).2]
    exact keeps_unplaced h
  | impossible fault => cases hr
  | joiner joiner =>
    cases hr
    exact keeps_unplaced { h with joiner := rfl }
  | openBegin =>
    cases hr
    exact keeps_unplaced { h with inBegin := rfl }
  | closeBegin =>
    cases hr
    exact keeps_unplaced { h with inBegin := rfl }
  | _ =>
    cases hr
    exact keeps_unplaced { h with }

theorem keeps_act (h : Keeps strict st ls r) {c : Command} (hc : st.command? s = some c) (hr : r.act c = .ok r') :
    Keeps strict (st.after s) (ls ++ (st.placed? s).toList) r' := by
  have hpasses : r.passesOver c.mark = st.passesOver c.mark := by rw [passesOver, Stance.passesOver, h.inBegin]
  rw [act_eq, hpasses] at hr
  unfold Stance.after Stance.placed?
  cases hpass : st.passesOver c.mark with
  | true =>
    have hnone : st.order? s = none := by simp [Stance.order?, hc, Option.filter, hpass]
    rw [hpass, if_pos rfl] at hr
    cases hr
    rw [hnone]
    exact keeps_unplaced h
  | false =>
    rw [hpass, if_neg Bool.false_ne_true] at hr
    rw [Stance.order?_of_command? hc hpass]
    exact keeps_carryOut h (fun _ _ ho => mark_of_orderOf ho) hr

/-- A reader that carries a statement out keeps to the stance. -/
theorem keeps_carry (h : Keeps strict st ls r) (hr : r.carry s = .ok r') :
    Keeps strict (st.after s) (ls ++ (st.placed? s).toList) r' := by
  cases s with
  | block c =>
    rw [carry] at hr
    split at hr
    · next hobject =>
      cases hr
      obtain ⟨o, ho⟩ := Option.isSome_iff_exists.mp hobject
      exact { keeps_act h rfl (act_of_object? ho) with }
    · exact keeps_act h rfl hr
  | command c more =>
    rw [carry, h.joiner] at hr
    exact keeps_act h rfl hr
  | stray line =>
    rw [(complain_eq_ok.mp hr).2]
    simpa [Stance.placed?, Stance.after, Stance.order?, Stance.command?] using h
  | object o =>
    cases hr
    simpa [Stance.placed?, Stance.after, Stance.order?, Stance.command?] using { h with }
  | unclosed o => cases hr

/-- So does one that carries out all statements of a text. -/
theorem keeps_foldlM (h : Keeps strict st ls r) (hr : ss.foldlM carry r = .ok r') :
    Keeps strict (ss.foldl Stance.after st) (ls ++ placedFrom st ss) r' := by
  induction ss generalizing st ls r with
  | nil =>
    cases hr
    rw [placedFrom, List.append_nil]
    exact h
  | cons s ss ih =>
    rw [List.foldlM_cons] at hr
    obtain ⟨q, hq, hr⟩ := bind_eq_ok.mp hr
    rw [placedFrom, List.foldl_cons, ← List.append_assoc]
    exact ih (keeps_carry h hq) hr

theorem keeps_start (strict : Bool) (origin : String) : Keeps strict {} [] { strict, script := { origin } } := by
  refine ⟨rfl, rfl, rfl, rfl, tidy_bareHome, nofun, ?_, nofun⟩
  intro t ht
  rw [List.mem_singleton.mp ht]
  rfl

end Reader

open Reader

variable {strict : Bool} {origin text : String} {script : Script}

/-- What has been read was placed by its statements. -/
theorem exists_keeps_of_read (h : read strict origin text = .ok script) :
    ∃ r : Reader, r.Keeps strict (stanceAfter (statementsOf text)) (placedIn text) ∧ r.script = script := by
  rw [read_eq] at h
  obtain ⟨r, hr, rfl⟩ := map_eq_ok.mp h
  exact ⟨r, keeps_foldlM (keeps_start strict origin) hr, rfl⟩

/-- Every statement of a text that has been read was carried out in the stance of those before. -/
theorem exists_carry_of_read (h : read strict origin text = .ok script) {before later : List Statement} {s : Statement}
    (hsplit : statementsOf text = before ++ s :: later) :
    ∃ r r' : Reader, r.Keeps strict (stanceAfter before) (placedFrom {} before) ∧ r.carry s = .ok r' := by
  rw [read_eq, hsplit, List.foldlM_append] at h
  obtain ⟨last, hlast, -⟩ := map_eq_ok.mp h
  obtain ⟨r, hbefore, hrest⟩ := bind_eq_ok.mp hlast
  rw [List.foldlM_cons] at hrest
  obtain ⟨r', hcarry, -⟩ := bind_eq_ok.mp hrest
  exact ⟨r, r', keeps_foldlM (keeps_start strict origin) hbefore, hcarry⟩

end Repartee.Script
