/-
  Repartee.Proofs.Placement.Topics — which topic a trigger is declared in.

  A topic line is `> topic` with a name or `< topic`, which stands for the home topic. The open topic
  is the one that was named last, but a line with a stray word in its header does not open its topic: a
  strict reader refuses it, and a lenient one stays in the topic that was open before.

  Proved:
  - The open topic is that of the last topic line without a stray word (`topic_stanceAfter`).
  - Every trigger is declared in the open topic and in no other; it is the one named last if that line has
    no stray word, and in whatever a strict reader accepts (`declared_in_open_topic`).
  - After a stray word triggers are declared in the topic before (`a_stray_word_keeps_the_topic_before`).
-/

import Repartee.Proofs.Placement

namespace Repartee.Script

open Text

/-- The topic that a topic line names, and whether a word in its header is astray. -/
def Statement.topicMark? : Statement → Option (String × Bool)
  | .block c =>
    match Reader.orderOf c with
    | .openTopic name header => some (lowercase name, isStray header)
    | .closeTopic => some (homeTopic, false)
    | _ => none
  | _ => none

/-- The topic lines among statements. -/
def topicMarks (ss : List Statement) : List (String × Bool) := ss.filterMap Statement.topicMark?

/-- The topic that is named last, or else the home topic. -/
def namedLast (marks : List (String × Bool)) : String := (marks.getLast?.map (·.1)).getD homeTopic

namespace Stance

variable {st : Stance} {s : Statement} {c : Command}

theorem order?_block (h : c.mark = '>' ∨ c.mark = '<') : st.order? (.block c) = some (c.line, Reader.orderOf c) := by
  have hpass : st.passesOver c.mark = false := by
    rcases h with h | h <;> simp [passesOver, h]
  exact order?_of_command? rfl hpass

/-- Only block marks open and close topics. -/
theorem topic_obey_orderOf (h : c.mark ≠ '>' ∧ c.mark ≠ '<') : (st.obey (Reader.orderOf c)).topic = st.topic := by
  have hdefinition : (st.obey (Reader.definitionOf c.body)).topic = st.topic := by
    simp only [Reader.definitionOf]
    repeat' split
    all_goals rfl
  unfold Reader.orderOf
  rw [if_neg h.1, if_neg h.2]
  repeat' split
  all_goals first | exact hdefinition | rfl

theorem topic_after (h : s.IsProper) :
    (st.after s).topic = ((s.topicMark?.filter (!·.2)).map (·.1)).getD st.topic := by
  cases s with
  | block c =>
    unfold after
    rw [order?_block h]
    simp only [Statement.topicMark?]
    cases horder : Reader.orderOf c with
    | openTopic name header =>
      cases hstray : isStray header with
      | true => simp [obey, hstray, Option.filter]
      | false => simp [obey, hstray, Option.filter]
    | _ => rfl
  | command c more =>
    unfold after
    cases horder : st.order? (.command c more) with
    | none => rfl
    | some o =>
      obtain ⟨d, hd, -, rfl⟩ := exists_of_order? horder
      cases hd
      obtain ⟨hmark, -⟩ := Reader.mark_fold st.joiner c more
      exact topic_obey_orderOf ⟨hmark ▸ h.1, hmark ▸ h.2.1⟩
  | _ => rfl

end Stance

/-- The open topic is the one that was named last, but for lines with a stray word. -/
theorem topic_stanceAfter {ss : List Statement} (h : ∀ s ∈ ss, s.IsProper) :
    (stanceAfter ss).topic = namedLast ((topicMarks ss).filter (!·.2)) := by
  induction ss using List.reverseRecOn with
  | nil => rfl
  | append_singleton ss s ih =>
    have hss := ih fun t ht => h t (List.mem_append_left [s] ht)
    have hs := h s (List.mem_append_right ss List.mem_cons_self)
    have hafter : stanceAfter (ss ++ [s]) = (stanceAfter ss).after s := List.foldl_concat ..
    rw [hafter, Stance.topic_after hs, hss, topicMarks, topicMarks, List.filterMap_append, List.filter_append]
    cases hmark : s.topicMark? with
    | none => simp [hmark]
    | some mark =>
      cases hstray : mark.2 with
      | true => simp [hmark, hstray, Option.filter]
      | false => simp [hmark, hstray, Option.filter, namedLast]

theorem namedLast_filter {marks : List (String × Bool)} (h : ∀ m ∈ marks.getLast?, m.2 = false) :
    namedLast (marks.filter (!·.2)) = namedLast marks := by
  rcases List.eq_nil_or_concat marks with rfl | ⟨start, m, rfl⟩
  · rfl
  · have hm : m.2 = false := h m (by simp)
    simp [namedLast, hm]

namespace Reader

variable {strict : Bool} {st : Stance} {ls : List Placed} {r r' : Reader} {s : Statement} {c : Command}

/-- A stray word is passed over by a lenient reader only. -/
theorem strict_of_stray (h : Keeps strict st ls r) (hs : s.IsProper) (hr : r.carry s = .ok r') {name : String}
    (hmark : s.topicMark? = some (name, true)) : strict = false := by
  cases s with
  | block c =>
    obtain ⟨topic, header, horder, hstray⟩ : ∃ topic header, orderOf c = .openTopic topic header ∧ isStray header = true := by
      simp only [Statement.topicMark?] at hmark
      split at hmark
      · next topic header horder => exact ⟨topic, header, horder, congrArg Prod.snd (Option.some.inj hmark)⟩
      · cases hmark
      · cases hmark
    have hobject : object? c = none := by simp [object?, horder]
    have hpass : ¬ r.passesOver c.mark = true := by
      rcases hs with hs | hs <;> simp [passesOver, hs]
    rw [carry, hobject, Option.isSome_none, if_neg Bool.false_ne_true, act_eq, if_neg hpass, horder] at hr
    exact (keeps_openTopic h hr).1 hstray
  | _ => cases hmark

/-- A trigger that is read has a pattern, and is placed in the open topic. -/
theorem placed?_of_carry_trigger (h : Keeps strict st ls r) {more : List (List Char)} (hmark : c.mark = '+')
    (hbegin : st.inBegin = false) (hr : r.carry (.command c more) = .ok r') :
    st.placed? (.command c more) = some ⟨st.topic, '+', ⟨.ofList (st.joiner.fold c more).body, c.line⟩⟩ := by
  obtain ⟨hfold, hline⟩ := mark_fold st.joiner c more
  have hpass : st.passesOver (st.joiner.fold c more).mark = false := by simp [Stance.passesOver, hbegin]
  have hpass' : ¬ r.passesOver (st.joiner.fold c more).mark = true := by simp [passesOver, h.inBegin, hbegin]
  have horder : orderOf (st.joiner.fold c more) =
      if (st.joiner.fold c more).body.isEmpty then .impossible .emptyTrigger
      else .trigger (.ofList (st.joiner.fold c more).body) := by
    simp [orderOf, hfold, hmark]
  rw [carry, h.joiner, act_eq, if_neg hpass', horder] at hr
  rw [Stance.placed?, Stance.order?_of_command? rfl hpass, horder, hline]
  split at hr
  · cases hr
  · next hbody =>
    rw [if_neg hbody]
    rfl

end Reader

section Read

variable {strict : Bool} {origin text : String} {script : Script} (h : read strict origin text = .ok script)
  {before later : List Statement}

include h

/-- What a strict reader accepts has no stray words in its topic lines. -/
theorem no_stray_of_strict (hsplit : statementsOf text = before ++ later) (hstrict : strict = true) :
    (topicMarks before).filter (!·.2) = topicMarks before := by
  rw [List.filter_eq_self]
  intro m hm
  obtain ⟨s, hs, hmark⟩ := List.mem_filterMap.mp hm
  obtain ⟨start, rest, rfl⟩ := List.append_of_mem hs
  rw [List.append_assoc, List.cons_append] at hsplit
  obtain ⟨r, r', hkeeps, hcarry⟩ := exists_carry_of_read h hsplit
  have hproper : s.IsProper := isProper_of_mem_statementsOf (hsplit ▸ List.mem_append_right start List.mem_cons_self)
  obtain ⟨name, stray⟩ := m
  cases stray with
  | false => rfl
  | true =>
    rw [hstrict] at hkeeps
    cases Reader.strict_of_stray hkeeps hproper hcarry hmark

variable {c : Command} {more : List (List Char)}

/-- A trigger that is placed has its topic, and no other topic has a trigger of its number. -/
theorem exists_topic_of_trigger {l : Placed} (hl : l ∈ placedIn text) (hmark : l.mark = '+') :
    ∃ t ∈ script.topics, t.name = l.topic ∧ (∃ u ∈ t.triggers, u.pattern = l.line) ∧
      ∀ t' ∈ script.topics, ∀ u ∈ t'.triggers, u.pattern.number = l.line.number → t' = t := by
  obtain ⟨r, hr, rfl⟩ := exists_keeps_of_read h
  obtain ⟨t, ht, hname⟩ := List.mem_map.mp (hr.known l hl)
  refine ⟨t, ht, hname, ?_, ?_⟩
  · rw [hr.triggers t ht, hname]
    exact exists_trigger_iff.mpr ⟨l, hl, hmark, rfl, rfl⟩
  · intro t' ht' u hu hnumber
    rw [hr.triggers t' ht'] at hu
    obtain ⟨m, hm, -, htopic, hline⟩ := exists_trigger_iff.mp ⟨u, hu, rfl⟩
    obtain rfl : m = l := eq_of_number hm hl (by rw [hline, hnumber])
    obtain ⟨i, hi⟩ := List.mem_iff_getElem?.mp ht
    obtain ⟨k, hk⟩ := List.mem_iff_getElem?.mp ht'
    obtain rfl : k = i := hr.tidy.once hk hi (htopic.symm.trans hname.symm)
    exact Option.some.inj (hk.symm.trans hi)

/-- A trigger is declared in the open topic and in no other. That is the topic that the topic line before it names, if
this line has no stray word, and in whatever a strict reader accepts. -/
theorem declared_in_open_topic (hsplit : statementsOf text = before ++ .command c more :: later) (hmark : c.mark = '+')
    (hbegin : (stanceAfter before).inBegin = false) :
    let st := stanceAfter before
    (∃ t ∈ script.topics, t.name = st.topic ∧
      (∃ u ∈ t.triggers, u.pattern = ⟨.ofList (st.joiner.fold c more).body, c.line⟩) ∧
      ∀ t' ∈ script.topics, ∀ u ∈ t'.triggers, u.pattern.number = c.line → t' = t) ∧
    st.topic = namedLast ((topicMarks before).filter (!·.2)) ∧
    ((strict = true ∨ ∀ m ∈ (topicMarks before).getLast?, m.2 = false) → st.topic = namedLast (topicMarks before)) := by
  intro st
  have hproper : ∀ s ∈ before, s.IsProper := by
    intro s hs
    have hmem : s ∈ statementsOf text := by
      rw [hsplit]
      exact List.mem_append_left _ hs
    exact isProper_of_mem_statementsOf hmem
  have htopic : st.topic = namedLast ((topicMarks before).filter (!·.2)) := topic_stanceAfter hproper
  refine ⟨?_, htopic, ?_⟩
  · obtain ⟨r, r', hkeeps, hcarry⟩ := exists_carry_of_read h hsplit
    have hplaced := Reader.placed?_of_carry_trigger hkeeps hmark hbegin hcarry
    refine exists_topic_of_trigger h (l := ⟨st.topic, '+', _⟩) ?_ rfl
    rw [placedIn_eq hsplit hplaced]
    exact List.mem_append_right _ List.mem_cons_self
  · intro hor
    rw [htopic]
    rcases hor with hstrict | hlast
    · rw [no_stray_of_strict h hsplit hstrict]
    · rw [namedLast_filter hlast]

end Read

/-- The begin block is closed again, and the stray word stands in an earlier line. -/
theorem declared_in_open_topic_bar :
    let text := "> topic Shop stray\n> topic Bar inherits random\n> begin\n+ request\n< begin\n+ b\n^ c\n- y"
    let before : List Statement := [.block ⟨'>', "topic Shop stray".toList, 1⟩,
      .block ⟨'>', "topic Bar inherits random".toList, 2⟩, .block ⟨'>', "begin".toList, 3⟩,
      .command ⟨'+', "request".toList, 4⟩ [], .block ⟨'<', "begin".toList, 5⟩]
    let later : List Statement := [.command ⟨'-', ['y'], 8⟩ []]
    ∃ script, read false "x" text = .ok script ∧ statementsOf text = before ++ .command ⟨'+', ['b'], 6⟩ [['c']] :: later ∧
      (stanceAfter before).inBegin = false ∧ (∀ m ∈ (topicMarks before).getLast?, m.2 = false) ∧
      (stanceAfter before).topic = "bar" ∧
      ∃ t ∈ script.topics, t.name = "bar" ∧ ∃ u ∈ t.triggers, u.pattern = ⟨"bc", 6⟩ := by
  intro text before later
  obtain ⟨script, hread, -⟩ : ∃ script, read false "x" text = .ok script ∧ True := exists_ok_of_any (by decide +kernel)
  have hsplit : statementsOf text = before ++ .command ⟨'+', ['b'], 6⟩ [['c']] :: later := by decide +kernel
  have hbegin : (stanceAfter before).inBegin = false := by decide +kernel
  have hlast : ∀ m ∈ (topicMarks before).getLast?, m.2 = false := by decide +kernel
  obtain ⟨⟨t, ht, hname, ⟨u, hu, hpattern⟩, -⟩, -, hnamed⟩ := declared_in_open_topic hread hsplit rfl hbegin
  have htopic : (stanceAfter before).topic = "bar" := (hnamed (.inr hlast)).trans (by decide +kernel)
  refine ⟨script, hread, hsplit, hbegin, hlast, htopic, t, ht, hname.trans htopic, u, hu, ?_⟩
  rw [hpattern]
  decide +kernel

/-- After a stray word triggers are declared in the topic before, here the home topic. -/
theorem a_stray_word_keeps_the_topic_before :
    let text := "> topic t stray\n+ b\n- y\n< topic"
    let before : List Statement := [.block ⟨'>', "topic t stray".toList, 1⟩]
    let later : List Statement := [.command ⟨'-', ['y'], 3⟩ [], .block ⟨'<', "topic".toList, 4⟩]
    statementsOf text = before ++ .command ⟨'+', ['b'], 2⟩ [] :: later ∧ namedLast (topicMarks before) = "t" ∧
      ∃ script, read false "x" text = .ok script ∧
        script.topics.map (fun t => (t.name, t.triggers.map (·.pattern))) = [("random", [⟨"b", 2⟩]), ("t", [])] := by
  intro text before later
  refine ⟨by decide +kernel, by decide +kernel, exists_ok_of_any (by decide +kernel)⟩

end Repartee.Script
