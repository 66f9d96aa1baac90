/-
  Repartee.Proofs.Placement.Triggers — which trigger a line belongs to.

  The lines that are placed in a topic fall into groups, each of a line that declares a trigger and of the
  lines up to the next such line of the topic, however far apart the lines stand in the text. Where every
  line stands in the topic of the line before it, these are the groups of the text itself.

  Proved:
  - Grouping loses no line and doubles none (`flatMap_grouped`), and in a text whose lines stand with their
    triggers it does not matter whether lines are grouped by topic or as they come (`grouped_filter`).
  - A topic that is read has the triggers of its groups; a line in a topic without a trigger so far makes the
    text fail (`triggers_of_read`).
  - A line after the end of a topic belongs to the last trigger of the home topic, if it has one
    (`a_line_after_a_topic_goes_to_an_older_trigger`).
-/

import Repartee.Proofs.Placement

namespace Repartee.Script

variable {ls : List Placed} {l : Placed} {name : String}

/-! ## Groups -/

/-- The lines of a group are those of one trigger. -/
structure Group.IsWhole (g : Group) : Prop where
  head : g.head.mark = '+'
  own : ∀ l ∈ g.own, Reader.isAttachment l.mark = true

/-- Every line that belongs to a trigger stands in the topic of the line before it. -/
def Neat (ls : List Placed) : Prop := ls.IsChain fun l m => m.mark ≠ '+' → m.topic = l.topic

instance (ls : List Placed) : Decidable (Neat ls) := inferInstanceAs (Decidable (ls.IsChain _))

/-- Groups and the lines before them are all lines, once and in their order. -/
theorem flatMap_grouped (ls : List Placed) :
    ls.takeWhile (·.mark ≠ '+') ++ (grouped ls).flatMap Group.lines = ls := by
  induction ls with
  | nil => rfl
  | cons l ls ih =>
    rw [grouped]
    by_cases hl : l.mark = '+'
    · rw [if_pos hl, List.takeWhile_cons_of_neg (by simp [hl]), List.nil_append, List.flatMap_cons, Group.lines,
        List.cons_append, ih]
    · rw [if_neg hl, List.takeWhile_cons_of_pos (by simp [hl]), List.cons_append, ih]

theorem flatMap_grouped_of_begun (h : ∀ l ∈ ls.head?, l.mark = '+') : (grouped ls).flatMap Group.lines = ls := by
  cases ls with
  | nil => rfl
  | cons l ls =>
    have hall := flatMap_grouped (l :: ls)
    rw [List.takeWhile_cons_of_neg (by simp [h l rfl])] at hall
    exact hall

theorem isWhole_grouped (h : ∀ l ∈ ls, l.mark = '+' ∨ Reader.isAttachment l.mark = true) : ∀ g ∈ grouped ls, g.IsWhole := by
  induction ls with
  | nil => exact fun _ hg => nomatch hg
  | cons l ls ih =>
    obtain ⟨-, hls⟩ := List.forall_mem_cons.mp h
    rw [grouped]
    by_cases hl : l.mark = '+'
    · rw [if_pos hl, List.forall_mem_cons]
      refine ⟨⟨hl, ?_⟩, ih hls⟩
      intro m hm
      have hmark := List.mem_takeWhile_imp (p := fun n : Placed => decide (n.mark ≠ '+')) hm
      exact (hls m ((List.takeWhile_sublist _).subset hm)).resolve_left (of_decide_eq_true hmark)
    · rw [if_neg hl]
      exact ih hls

/-- After a line of another topic the next line of this topic declares a trigger. -/
theorem takeWhile_filter_of_ne (h : Neat (l :: ls)) (hl : l.topic ≠ name) :
    (ls.filter (·.topic = name)).takeWhile (·.mark ≠ '+') = [] := by
  induction ls generalizing l with
  | nil => rfl
  | cons m ms ih =>
    obtain ⟨hm, hms⟩ := List.isChain_cons_cons.mp h
    by_cases htopic : m.topic = name
    · have hplus : m.mark = '+' := by
        by_contra hne
        exact hl ((hm hne).symm.trans htopic)
      rw [List.filter_cons_of_pos (by simpa using htopic), List.takeWhile_cons_of_neg (by simp [hplus])]
    · rw [List.filter_cons_of_neg (by simpa using htopic)]
      exact ih hms htopic

/-- The lines up to the next trigger of the topic are those up to the next trigger of the text. -/
theorem takeWhile_filter (h : Neat (l :: ls)) (hl : l.topic = name) :
    (ls.filter (·.topic = name)).takeWhile (·.mark ≠ '+') = ls.takeWhile (·.mark ≠ '+') := by
  induction ls generalizing l with
  | nil => rfl
  | cons m ms ih =>
    obtain ⟨hm, hms⟩ := List.isChain_cons_cons.mp h
    by_cases hplus : m.mark = '+'
    · rw [List.takeWhile_cons_of_neg (a := m) (by simp [hplus])]
      by_cases htopic : m.topic = name
      · rw [List.filter_cons_of_pos (by simpa using htopic), List.takeWhile_cons_of_neg (by simp [hplus])]
      · rw [List.filter_cons_of_neg (by simpa using htopic)]
        exact takeWhile_filter_of_ne hms htopic
    · have htopic : m.topic = name := (hm hplus).trans hl
      rw [List.filter_cons_of_pos (by simpa using htopic), List.takeWhile_cons_of_pos (by simpa using hplus),
        List.takeWhile_cons_of_pos (by simpa using hplus), ih hms htopic]

/-- The groups of a topic are the groups of the text that begin in it. -/
theorem grouped_filter (h : Neat ls) (name : String) :
    grouped (ls.filter (·.topic = name)) = (grouped ls).filter (·.head.topic = name) := by
  induction ls with
  | nil => rfl
  | cons l ls ih =>
    replace ih := ih h.tail
    rw [grouped]
    by_cases htopic : l.topic = name
    · rw [List.filter_cons_of_pos (by simpa using htopic), grouped]
      by_cases hl : l.mark = '+'
      · rw [if_pos hl, if_pos hl, List.filter_cons_of_pos (by simpa using htopic), takeWhile_filter h htopic, ih]
      · rw [if_neg hl, if_neg hl, ih]
    · rw [List.filter_cons_of_neg (by simpa using htopic)]
      by_cases hl : l.mark = '+'
      · rw [if_pos hl, List.filter_cons_of_neg (by simpa using htopic), ih]
      · rw [if_neg hl, ih]

/-! ## Lines that belong to triggers -/

namespace Reader

variable {st : Stance} {c : Command} {more : List (List Char)}

theorem orderOf_attachment (h : isAttachment c.mark = true) : orderOf c = .attachment c.mark (.ofList c.body) := by
  have hplus := attachment_ne_plus h
  rcases isAttachment_iff.mp h with hc | hc | hc | hc <;> simp [orderOf, hc, isAttachment]

theorem order?_attachment (h : isAttachment c.mark = true) (hbegin : st.inBegin = false) :
    st.order? (.command c more) = some (c.line, .attachment c.mark (.ofList (st.joiner.fold c more).body)) := by
  obtain ⟨hmark, hline⟩ := mark_fold st.joiner c more
  have hpass : st.passesOver (st.joiner.fold c more).mark = false := by simp [Stance.passesOver, hbegin]
  rw [Stance.order?_of_command? rfl hpass, orderOf_attachment (by rw [hmark]; exact h), hmark, hline]

/-- A line has nothing to belong to in a topic that no trigger has been placed in. -/
theorem carry_outside {strict : Bool} {r : Reader} (hr : r.Keeps strict st ls) (h : isAttachment c.mark = true)
    (hbegin : st.inBegin = false) (hnone : ∀ l ∈ ls, l.topic = st.topic → l.mark ≠ '+') :
    r.carry (.command c more) = .error ⟨c.line, .outsideTrigger c.mark⟩ := by
  obtain ⟨hmark, hline⟩ := mark_fold st.joiner c more
  have hpass : ¬ r.passesOver (st.joiner.fold c more).mark = true := by simp [passesOver, hr.inBegin, hbegin]
  have hempty : r.currentTopic.triggers.isEmpty = true := by
    rw [triggers_currentTopic hr, triggersIn, grouped_eq_nil_iff.mpr]
    · rfl
    · intro l hl
      obtain ⟨hl, htopic⟩ := List.mem_filter.mp hl
      exact hnone l hl (of_decide_eq_true htopic)
  rw [carry, hr.joiner, act_eq, if_neg hpass, orderOf_attachment (by rw [hmark]; exact h), carryOut, if_pos hempty, hmark,
    hline]

end Reader

theorem mark_of_mem_placedFrom {st : Stance} {ss : List Statement} (h : l ∈ placedFrom st ss) :
    l.mark = '+' ∨ Reader.isAttachment l.mark = true := by
  obtain ⟨st', s, -, hplaced⟩ := exists_of_mem_placedFrom h
  obtain ⟨c, -, hl⟩ := Stance.exists_of_placed? hplaced
  exact (Reader.placed?_orderOf hl).2

section Read

variable {strict : Bool} {origin text : String} {script : Script}

theorem isWhole_grouped_placedIn (h : ∀ l ∈ ls, l ∈ placedIn text) : ∀ g ∈ grouped ls, g.IsWhole :=
  isWhole_grouped fun l hl => mark_of_mem_placedFrom (h l hl)

/-- The triggers of a topic have its lines, none lost and none doubled. -/
theorem exists_groups_of_read (h : read strict origin text = .ok script) {t : Topic} (ht : t ∈ script.topics) :
    ∃ gs : List Group, (∀ g ∈ gs, g.IsWhole) ∧ gs.flatMap Group.lines = (placedIn text).filter (·.topic = t.name) ∧
      t.triggers = gs.map Group.trigger := by
  obtain ⟨r, hr, rfl⟩ := exists_keeps_of_read h
  refine ⟨grouped ((placedIn text).filter (·.topic = t.name)), ?_, ?_, hr.triggers t ht⟩
  · exact isWhole_grouped_placedIn fun l hl => List.mem_of_mem_filter hl
  · exact flatMap_grouped_of_begun (hr.begun t.name)

/-- Where lines stand with their triggers, they have the lines up to the next trigger of the text. -/
theorem exists_groups_of_neat (h : read strict origin text = .ok script) (hneat : Neat (placedIn text)) :
    ∃ gs : List Group, (∀ g ∈ gs, g.IsWhole) ∧ gs.flatMap Group.lines = placedIn text ∧
      ∀ t ∈ script.topics, t.triggers = (gs.filter (·.head.topic = t.name)).map Group.trigger := by
  obtain ⟨r, hr, rfl⟩ := exists_keeps_of_read h
  refine ⟨grouped (placedIn text), isWhole_grouped_placedIn fun _ hl => hl, flatMap_grouped_of_begun ?_, ?_⟩
  · intro l hl
    -- The first line of the text is the first in its topic.
    refine hr.begun l.topic l ?_
    obtain ⟨rest, hrest⟩ := List.head?_eq_some_iff.mp hl
    rw [hrest, List.filter_cons_of_pos (by simp)]
    rfl
  · intro t ht
    rw [hr.triggers t ht, triggersIn, grouped_filter hneat]

variable {before later : List Statement} {c : Command} {more : List (List Char)}

/-- A line in a topic without a trigger so far makes the text fail, there if not before. -/
theorem refused_outside (hsplit : statementsOf text = before ++ .command c more :: later) (hc : Reader.isAttachment c.mark = true)
    (hbegin : (stanceAfter before).inBegin = false)
    (hnone : ∀ l ∈ placedFrom {} before, l.topic = (stanceAfter before).topic → l.mark ≠ '+') :
    ∃ e, read strict origin text = .error e ∧
      ∀ r, before.foldlM Reader.carry { strict, script := { origin } } = .ok r → e = ⟨c.line, .outsideTrigger c.mark⟩ := by
  rw [read_eq, hsplit, List.foldlM_append]
  cases hbefore : before.foldlM Reader.carry { strict, script := { origin } } with
  | error e =>
    refine ⟨e, rfl, ?_⟩
    intro r hr
    cases hr
  | ok r =>
    have hkeeps := Reader.keeps_foldlM (Reader.keeps_start strict origin) hbefore
    have hcarry : r.carry (.command c more) = .error ⟨c.line, .outsideTrigger c.mark⟩ :=
      Reader.carry_outside hkeeps hc hbegin hnone
    refine ⟨⟨c.line, .outsideTrigger c.mark⟩, ?_, fun _ _ => rfl⟩
    change ((.command c more :: later : List Statement).foldlM Reader.carry r).map (·.script) = _
    rw [List.foldlM_cons, hcarry]
    rfl

end Read

/-- In a text that can be read every line belongs to one trigger, the last of the open topic, and where lines stand with
their triggers that is the last of the text. A line in a topic without a trigger so far is refused. -/
theorem triggers_of_read {strict : Bool} {origin text : String} :
    (∀ script, read strict origin text = .ok script →
      (script.topics.map (·.name)).Nodup ∧ (∀ l ∈ placedIn text, l.topic ∈ script.topics.map (·.name)) ∧
      (∀ t ∈ script.topics, ∃ gs : List Group, (∀ g ∈ gs, g.IsWhole) ∧
        gs.flatMap Group.lines = (placedIn text).filter (·.topic = t.name) ∧ t.triggers = gs.map Group.trigger) ∧
      (Neat (placedIn text) → ∃ gs : List Group, (∀ g ∈ gs, g.IsWhole) ∧ gs.flatMap Group.lines = placedIn text ∧
        ∀ t ∈ script.topics, t.triggers = (gs.filter (·.head.topic = t.name)).map Group.trigger)) ∧
    ∀ before c more later, statementsOf text = before ++ .command c more :: later → Reader.isAttachment c.mark = true →
      (stanceAfter before).inBegin = false →
      let st := stanceAfter before
      ⟨st.topic, c.mark, ⟨.ofList (st.joiner.fold c more).body, c.line⟩⟩ ∈ placedIn text ∧
      ((∀ l ∈ placedFrom {} before, l.topic = st.topic → l.mark ≠ '+') →
        ∃ e, read strict origin text = .error e ∧
          ∀ r, before.foldlM Reader.carry { strict, script := { origin } } = .ok r →
            e = ⟨c.line, .outsideTrigger c.mark⟩) := by
  constructor
  · intro script h
    obtain ⟨r, hr, hscript⟩ := exists_keeps_of_read h
    refine ⟨?_, ?_, fun t ht => exists_groups_of_read h ht, exists_groups_of_neat h⟩
    · rw [← hscript]
      exact hr.tidy.nodup
    · rw [← hscript]
      exact hr.known
  · intro before c more later hsplit hc hbegin st
    have hplaced : st.placed? (.command c more) =
        some ⟨st.topic, c.mark, ⟨.ofList (st.joiner.fold c more).body, c.line⟩⟩ := by
      rw [Stance.placed?, Reader.order?_attachment hc hbegin]
      rfl
    refine ⟨?_, refused_outside hsplit hc hbegin⟩
    rw [placedIn_eq hsplit hplaced]
    exact List.mem_append_right _ List.mem_cons_self

/-- The lines stand with their triggers, and the header of a topic is no trigger. -/
theorem triggers_of_read_shop :
    let text := "+ hello\n- Hi!\n> topic shop\n+ buy *\n- Sold.\n* <star> == me => No.\n% really\n% sure\n- Gone.\n< topic"
    let outside := "+ hello\n- Hi!\n> topic shop\n- Sold."
    (∃ script, read false "x" text = .ok script ∧ Neat (placedIn text) ∧
      ∃ gs : List Group, (∀ g ∈ gs, g.IsWhole) ∧ gs.flatMap Group.lines = placedIn text ∧
        ∀ t ∈ script.topics, t.triggers = (gs.filter (·.head.topic = t.name)).map Group.trigger) ∧
    read false "x" outside = .error ⟨4, .outsideTrigger '-'⟩ := by
  intro text outside
  constructor
  · obtain ⟨script, hread, -⟩ : ∃ script, read false "x" text = .ok script ∧ True := exists_ok_of_any (by decide +kernel)
    have hneat : Neat (placedIn text) := by decide +kernel
    obtain ⟨-, -, -, hgroups⟩ := triggers_of_read.1 script hread
    exact ⟨script, hread, hneat, hgroups hneat⟩
  · let before : List Statement := [.command ⟨'+', "hello".toList, 1⟩ [], .command ⟨'-', "Hi!".toList, 2⟩ [],
      .block ⟨'>', "topic shop".toList, 3⟩]
    have hsplit : statementsOf outside = before ++ .command ⟨'-', "Sold.".toList, 4⟩ [] :: [] := by decide +kernel
    have hnone : ∀ l ∈ placedFrom {} before, l.topic = (stanceAfter before).topic → l.mark ≠ '+' := by decide +kernel
    obtain ⟨r, hr, -⟩ : ∃ r, before.foldlM Reader.carry { strict := false, script := { origin := "x" } } = .ok r ∧ True :=
      exists_ok_of_any (by decide +kernel)
    obtain ⟨-, herror⟩ := triggers_of_read.2 before _ [] [] hsplit (by decide) (by decide +kernel)
    obtain ⟨e, he, hplace⟩ := herror hnone
    rw [he, hplace r hr]

/-- The line after the topic is not refused: it goes to the last trigger of the home topic, and not to the one before it. -/
theorem a_line_after_a_topic_goes_to_an_older_trigger :
    let text := "+ a\n- x\n> topic t\n+ b\n- y\n< topic\n- z"
    (placedIn text).map (fun l => (l.mark, l.line.text)) = [('+', "a"), ('-', "x"), ('+', "b"), ('-', "y"), ('-', "z")] ∧
      ∃ script, read false "x" text = .ok script ∧
        script.topics.map (fun t => (t.name, t.triggers.map fun u => (u.pattern.text, u.replies.map (·.text)))) =
          [("random", [("a", ["x", "z"])]), ("t", [("b", ["y"])])] := by
  intro text
  refine ⟨by decide +kernel, exists_ok_of_any (by decide +kernel)⟩

end Repartee.Script
