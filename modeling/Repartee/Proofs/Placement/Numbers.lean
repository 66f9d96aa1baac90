/-
  Repartee.Proofs.Placement.Numbers — the line numbers of a script.

  A command acts when the next one comes, with the number that it was kept back with. Comments, objects,
  begin blocks and continuations take lines of the text in the meantime. The numbers that a script ends up
  with are those of the lines that its triggers, topics and objects are declared on.

  Proved:
  - A placed line stands on the line of its number, and begins with the body of that line, to which only
    continuations add (`declaredOn_of_placed`).
  - The heads of topics are those of the first line that opens each (`heads_foldlM`, `mem_foldl_withHead`).
  - In a script that has been read every line has the number of the rule line that declares it, and the
    numbers of triggers and of their lines ascend (`numbered_of_read`).
-/

import Repartee.Proofs.Placement.Triggers
import Repartee.Proofs.Statements.Lines

namespace Repartee.Script

open Text

/-! ## Numbers -/

/-- The command is a rule line of the text: the line of its number has its mark and its body, blanks aside. -/
def StandsIn (text : String) (c : Command) : Prop :=
  c ∈ rulesIn text ∧ ∃ k raw rest, c.line = k + 1 ∧ (linesIn text)[k]? = some raw ∧ trim raw = c.mark :: rest ∧
    c.body = trim rest

/-- The next rule line continues what begins on line `n`. -/
def IsContinued (text : String) (n : Nat) : Prop :=
  ∃ d, (rulesIn text).find? (n < ·.line) = some d ∧ d.mark = '^'

/-- A rule line of this mark has the number of the line and begins it; if nothing continues it, it is the whole of it. -/
def DeclaredOn (text : String) (mark : Char) (l : Line) : Prop :=
  ∃ c, StandsIn text c ∧ c.mark = mark ∧ c.line = l.number ∧ c.body <+: l.text.toList ∧
    (¬ IsContinued text c.line → l.text = .ofList c.body)

def Command.OpensTopic (c : Command) (name : String) : Prop :=
  c.mark = '>' ∧ ∃ word edges, (words c.body).map String.ofList = "topic" :: word :: edges ∧ lowercase word = name

def Command.OpensObject (c : Command) (name language : String) : Prop :=
  c.mark = '>' ∧ ∃ word more, (words c.body).map String.ofList = "object" :: name :: word :: more ∧ lowercase word = language

/-- The lines that belong to a trigger, with their marks. -/
def Trigger.own (t : Trigger) : List (Char × Line) :=
  (t.previous.map ('%', ·)).toList ++ t.replies.map ('-', ·) ++ t.conditions.map ('*', ·) ++
    (t.redirect.map ('@', ·)).toList

/-- All lines of a trigger, with their marks. -/
def Trigger.marked (t : Trigger) : List (Char × Line) := ('+', t.pattern) :: t.own

/-- The numbers of a trigger ascend from its pattern. -/
structure Trigger.Ascending (t : Trigger) : Prop where
  own : ∀ l ∈ t.own, t.pattern.number < l.2.number
  replies : (t.replies.map (·.number)).Pairwise (· < ·)
  conditions : (t.conditions.map (·.number)).Pairwise (· < ·)

/-- The numbers of a script point at the text. -/
structure Numbered (text : String) (script : Script) : Prop where
  lines : ∀ t ∈ script.topics, ∀ u ∈ t.triggers, ∀ l ∈ u.marked, DeclaredOn text l.1 l.2
  triggers : ∀ t ∈ script.topics, (t.triggers.map (·.pattern.number)).Pairwise (· < ·)
  ascending : ∀ t ∈ script.topics, ∀ u ∈ t.triggers, u.Ascending
  objects : ∀ o ∈ script.objects, ∃ c, StandsIn text c ∧ c.line = o.line ∧ c.OpensObject o.name o.language
  /-- Of the lines that open a topic the first one counts. -/
  topics : ∀ t ∈ script.topics, t.name ≠ homeTopic → ∃ c, StandsIn text c ∧ c.line = t.line ∧ c.OpensTopic t.name ∧
    ∀ d ∈ rulesIn text, d.OpensTopic t.name → c.line ≤ d.line

theorem mem_rulesIn_iff {text : String} {c : Command} : c ∈ rulesIn text ↔ .rule c ∈ itemsOf text := by
  constructor
  · intro h
    obtain ⟨i, hi, hrule⟩ := List.mem_filterMap.mp h
    cases i with
    | rule d =>
      cases hrule
      exact hi
    | _ => cases hrule
  · intro h
    exact List.mem_filterMap.mpr ⟨_, h, rfl⟩

/-- Every rule line is found on the line of its number. -/
theorem standsIn_iff {text : String} {c : Command} : StandsIn text c ↔ c ∈ rulesIn text := by
  constructor
  · exact And.left
  · intro h
    obtain ⟨k, raw, rest, hraw, hline, htrim, hbody⟩ := Reader.exists_line_of_rule (mem_rulesIn_iff.mp h)
    exact ⟨h, k, raw, rest, hline.trans (Nat.add_comm 1 k), hraw, htrim, hbody⟩

/-! ## Placed lines -/

namespace Reader

theorem prefix_fold (j : Joiner) (c : Command) (more : List (List Char)) : c.body <+: (j.fold c more).body := by
  induction more using List.reverseRecOn with
  | nil => exact List.prefix_refl _
  | append_singleton more body ih =>
    rw [fold_concat, List.append_assoc]
    exact ih.trans (List.prefix_append _ _)

end Reader

variable {text : String} {l : Placed} {c : Command} {more : List (List Char)}

/-- A placed line is a command of the text, with what continues it. -/
theorem exists_command_of_placed (h : l ∈ placedIn text) : ∃ (j : Joiner) (c : Command) (more : List (List Char)),
    .command c more ∈ statementsOf text ∧ l.mark = c.mark ∧ l.line = ⟨.ofList (j.fold c more).body, c.line⟩ := by
  obtain ⟨st, s, hs, hplaced⟩ := exists_of_mem_placedFrom h
  obtain ⟨c, hc, hl⟩ := Stance.exists_of_placed? hplaced
  obtain ⟨heq, hmark⟩ := Reader.placed?_orderOf hl
  cases s with
  | block d =>
    -- Block marks declare nothing.
    cases hc
    have hblock : c.mark = '>' ∨ c.mark = '<' := isProper_of_mem_statementsOf hs
    rw [heq] at hmark
    rcases hblock with hc | hc <;> simp [hc, Reader.isAttachment] at hmark
  | command d more =>
    cases hc
    obtain ⟨hmark, hline⟩ := Reader.mark_fold st.joiner d more
    exact ⟨st.joiner, d, more, hs, by rw [heq, hmark], by rw [heq, hline]⟩
  | _ => cases hc

theorem rulesIn_pairwise (text : String) : (rulesIn text).Pairwise (·.line < ·.line) := Reader.pairwise_rules _ _ _

/-- A command stands on the line of its number; if it has continuations, the next rule line is one. -/
theorem standsIn_of_command (h : .command c more ∈ statementsOf text) :
    StandsIn text c ∧ (¬ IsContinued text c.line → more = []) := by
  obtain ⟨v, hv, -⟩ | ⟨before, after, hitems, rfl⟩ := Reader.command_of_mem_statements h
  · cases hv
  · have hrules : rulesIn text = before.filterMap Item.rule? ++ c :: after.filterMap Item.rule? := by
      rw [rulesIn, hitems, List.filterMap_append]
      rfl
    refine ⟨standsIn_iff.mpr (by rw [hrules]; exact List.mem_append_right _ List.mem_cons_self), ?_⟩
    intro hnot
    by_contra hmore
    obtain ⟨d, rest, rfl, hd⟩ : ∃ d rest, after = .rule d :: rest ∧ d.mark = '^' := by
      unfold Reader.continuations at hmore
      split at hmore
      · next d rest =>
        refine ⟨d, rest, rfl, ?_⟩
        by_contra hd
        exact hmore (if_neg hd)
      · exact absurd rfl hmore
    apply hnot
    refine ⟨d, ?_, hd⟩
    have hpairwise := rulesIn_pairwise text
    rw [hrules] at hpairwise ⊢
    obtain ⟨-, hlater, hbefore⟩ := List.pairwise_append.mp hpairwise
    have hnext : c.line < d.line := (List.pairwise_cons.mp hlater).1 d List.mem_cons_self
    rw [List.find?_append, List.find?_eq_none.mpr, Option.none_or, List.find?_cons_of_neg (by simp)]
    · exact List.find?_cons_of_pos (by simpa using hnext)
    · intro e he hlt
      have hearlier := hbefore e he c List.mem_cons_self
      rw [decide_eq_true_eq] at hlt
      omega

theorem declaredOn_of_placed (h : l ∈ placedIn text) : DeclaredOn text l.mark l.line := by
  obtain ⟨j, c, more, hc, hmark, hline⟩ := exists_command_of_placed h
  obtain ⟨hstands, hwhole⟩ := standsIn_of_command hc
  refine ⟨c, hstands, hmark.symm, by rw [hline], ?_, ?_⟩
  · rw [hline, String.toList_ofList]
    exact Reader.prefix_fold j c more
  · intro hnot
    rw [hline, hwhole hnot]
    rfl

/-! ## The lines of a group -/

/-- Each line of a trigger is a line of the group that was placed with its mark. -/
theorem exists_of_mem_own {g : Group} {m : Char × Line} (h : m ∈ g.trigger.own) : ∃ l ∈ g.own, l.mark = m.1 ∧ l.line = m.2 := by
  have hkept : ∀ {mark : Char} {k : Line}, k ∈ (g.own.filter (·.mark = mark)).map (·.line) →
      ∃ l ∈ g.own, l.mark = mark ∧ l.line = k := by
    intro mark k hk
    obtain ⟨l, hl, rfl⟩ := List.mem_map.mp hk
    obtain ⟨hl, hmark⟩ := List.mem_filter.mp hl
    exact ⟨l, hl, of_decide_eq_true hmark, rfl⟩
  have hlast : ∀ {mark : Char} {k : Line}, (g.own.filter (·.mark = mark)).getLast?.map (·.line) = some k →
      ∃ l ∈ g.own, l.mark = mark ∧ l.line = k := by
    intro mark k hk
    obtain ⟨l, hl, rfl⟩ := Option.map_eq_some_iff.mp hk
    exact hkept (List.mem_map_of_mem (List.mem_of_getLast? hl))
  simp only [Trigger.own, List.mem_append, Option.mem_toList, Option.map_eq_some_iff, List.mem_map] at h
  obtain ((⟨k, hk, rfl⟩ | ⟨k, hk, rfl⟩) | ⟨k, hk, rfl⟩) | ⟨k, hk, rfl⟩ := h
  · exact hlast hk
  · exact hkept hk
  · exact hkept hk
  · exact hlast hk

theorem ascending_trigger {g : Group} (h : (g.lines.map (·.line.number)).Pairwise (· < ·)) : g.trigger.Ascending := by
  obtain ⟨hhead, hown⟩ := List.pairwise_cons.mp h
  have hfiltered : ∀ mark : Char, (((g.own.filter (·.mark = mark)).map (·.line)).map (·.number)).Pairwise (· < ·) := by
    intro mark
    rw [List.map_map]
    exact hown.sublist (List.filter_sublist.map _)
  refine ⟨?_, hfiltered '-', hfiltered '*'⟩
  intro m hm
  obtain ⟨l, hl, -, hline⟩ := exists_of_mem_own hm
  rw [← hline]
  exact hhead _ (List.mem_map_of_mem hl)

theorem head_sublist (gs : List Group) : (gs.map (·.head)).Sublist (gs.flatMap Group.lines) := by
  induction gs with
  | nil => exact .slnil
  | cons g gs ih =>
    rw [List.map_cons, List.flatMap_cons, Group.lines, List.cons_append]
    exact (ih.trans (List.sublist_append_right _ _)).cons_cons _

/-- The numbers of groups ascend if those of all their lines do. -/
theorem ascending_groups {gs : List Group} (h : ((gs.flatMap Group.lines).map (·.line.number)).Pairwise (· < ·)) :
    ((gs.map Group.trigger).map (·.pattern.number)).Pairwise (· < ·) ∧ ∀ g ∈ gs, g.trigger.Ascending := by
  constructor
  · have hheads := h.sublist ((head_sublist gs).map _)
    rw [List.map_map] at hheads ⊢
    exact hheads
  · intro g hg
    apply ascending_trigger
    rw [List.flatMap_def] at h
    exact h.sublist ((List.sublist_flatten_of_mem (List.mem_map_of_mem hg)).map _)

/-! ## The heads of topics -/

/-- The name and the line of a topic. -/
def Topic.head (t : Topic) : String × Nat := (t.name, t.line)

/-- The heads with one of the name, the new one if there is none. -/
def withHead (hs : List (String × Nat)) (h : String × Nat) : List (String × Nat) :=
  if hs.any (·.1 = h.1) then hs else hs ++ [h]

/-- The head of the topic that a statement opens. -/
def Statement.head? : Statement → Option (String × Nat)
  | .block c =>
    match Reader.orderOf c with
    | .openTopic name _ => some (lowercase name, c.line)
    | _ => none
  | _ => none

theorem fst_mem_withHead (hs : List (String × Nat)) (h : String × Nat) : h.1 ∈ (withHead hs h).map (·.1) := by
  rw [withHead]
  split
  · next hany => simpa using hany
  · simp

theorem subset_withHead (hs : List (String × Nat)) (h : String × Nat) : hs ⊆ withHead hs h := by
  rw [withHead]
  split
  · exact fun _ hmem => hmem
  · exact List.subset_append_left _ _

/-- A head is an old one, or the first new one of a new name. -/
theorem mem_foldl_withHead {h : String × Nat} {hs news : List (String × Nat)} (hmem : h ∈ news.foldl withHead hs) :
    h ∈ hs ∨ h.1 ∉ hs.map (·.1) ∧ news.find? (·.1 = h.1) = some h := by
  induction news generalizing hs with
  | nil => exact .inl hmem
  | cons n news ih =>
    rw [List.foldl_cons] at hmem
    rcases ih hmem with hold | ⟨hnew, hfind⟩
    · by_cases hany : hs.any (·.1 = n.1) = true
      · rw [withHead, if_pos hany] at hold
        exact .inl hold
      · rw [withHead, if_neg hany] at hold
        rcases List.mem_append.mp hold with hold | hlast
        · exact .inl hold
        · rw [List.mem_singleton.mp hlast]
          refine .inr ⟨?_, List.find?_cons_of_pos (by simp)⟩
          simpa using hany
    · right
      constructor
      · intro hold
        exact hnew (List.map_subset _ (subset_withHead hs n) hold)
      · rw [List.find?_cons_of_neg]
        · exact hfind
        · intro heq
          rw [decide_eq_true_eq] at heq
          exact hnew (heq ▸ fst_mem_withHead hs n)

namespace Reader

variable {r r' : Reader} {s : Statement} {ss : List Statement} {line : Nat} {o : Order} {c : Command}

theorem definitionOf_ne_openTopic (body : List Char) (name : String) (header : List String) :
    definitionOf body ≠ .openTopic name header := by
  intro h
  simp only [definitionOf] at h
  repeat' split at h
  all_goals cases h

theorem closingOf_ne_openTopic (body : List Char) (name : String) (header : List String) :
    closingOf body ≠ .openTopic name header := by
  intro h
  rw [closingOf] at h
  split at h <;> cases h

theorem mark_of_openTopic {name : String} {header : List String} (h : orderOf c = .openTopic name header) : c.mark = '>' := by
  by_contra hmark
  rw [orderOf, if_neg hmark] at h
  split at h
  · exact definitionOf_ne_openTopic c.body name header h
  · split at h
    · exact closingOf_ne_openTopic c.body name header h
    · repeat' split at h
      all_goals cases h

/-- A topic is opened by its name, after the word for it; what follows is its header. -/
theorem orderOf_eq_openTopic_iff {name : String} {header : List String} :
    orderOf c = .openTopic name header ↔ c.mark = '>' ∧ (words c.body).map String.ofList = "topic" :: name :: header := by
  constructor
  · intro h
    have hmark := mark_of_openTopic h
    refine ⟨hmark, ?_⟩
    simp only [orderOf, hmark, Char.reduceEq, if_false, if_true, openingOf] at h
    split at h
    · next words hwords =>
      split at h
      · cases h
      · cases h
        exact hwords
    · split at h <;> cases h
    · cases h
    · cases h
  · rintro ⟨hmark, hwords⟩
    simp only [orderOf, hmark, Char.reduceEq, if_false, if_true, openingOf, hwords]

theorem head_readEdges (t : Topic) (edge : Option Edge) (ws : List String) : (readEdges t edge ws).1.head = t.head :=
  readEdges_same (fun e _ _ => by cases e <;> rfl) t edge ws

theorem head_withName (ts : List Topic) (name : String) (line : Nat) :
    (withName ts name line).map Topic.head = withHead (ts.map Topic.head) (name, line) := by
  have hany : (ts.map Topic.head).any (·.1 = name) = ts.any (·.name = name) := by
    rw [List.any_map]
    rfl
  rw [withName, withHead, hany]
  split
  · rfl
  · rw [List.map_append]
    rfl

theorem heads_openTopic {name : String} {header : List String} (h : r.openTopic name header line = .ok r') :
    r'.script.topics.map Topic.head = withHead (r.script.topics.map Topic.head) (lowercase name, line) := by
  obtain ⟨i, t, ht, -, hlocate⟩ := exists_locate r (lowercase name) line
  rw [openTopic_eq, hlocate] at h
  simp only [List.getD_eq_getElem?_getD, ht, Option.getD_some] at h
  have hhead := head_readEdges t none header
  generalize readEdges t none header = found at h hhead
  obtain ⟨topic, stray⟩ := found
  have hedited : ((withName r.script.topics (lowercase name) line).modify i fun _ => topic).map Topic.head =
      withHead (r.script.topics.map Topic.head) (lowercase name, line) := by
    rw [map_modify_of_eq, head_withName]
    intro u hu
    rw [Option.some.inj (hu.symm.trans ht)]
    exact hhead
  cases stray with
  | some word =>
    rw [(complain_eq_ok.mp h).2]
    exact hedited
  | none =>
    cases h
    exact hedited

/-- Only a topic line adds a head. -/
theorem heads_carryOut (ho : ∀ name header, o ≠ .openTopic name header) (h : r.carryOut line o = .ok r') :
    r'.script.topics.map Topic.head = r.script.topics.map Topic.head := by
  cases o with
  | openTopic name header => exact absurd rfl (ho name header)
  | trigger text =>
    cases h
    exact map_modify_of_eq fun _ _ => rfl
  | attachment mark text =>
    rw [carryOut] at h
    split at h
    · cases h
    · cases h
      exact map_modify_of_eq fun _ _ => rfl
  | impossible fault => cases h
  | odd fault => rw [(complain_eq_ok.mp h).2]
  | _ =>
    cases h
    rfl

theorem heads_act (ho : ∀ name header, orderOf c ≠ .openTopic name header) (h : r.act c = .ok r') :
    r'.script.topics.map Topic.head = r.script.topics.map Topic.head := by
  rw [act_eq] at h
  split at h
  · cases h
    rfl
  · exact heads_carryOut ho h

theorem heads_carry (hs : s.IsProper) (h : r.carry s = .ok r') :
    r'.script.topics.map Topic.head = s.head?.toList.foldl withHead (r.script.topics.map Topic.head) := by
  cases s with
  | block c =>
    cases horder : orderOf c with
    | openTopic name header =>
      have hpass : ¬ r.passesOver c.mark = true := by simp [passesOver, (orderOf_eq_openTopic_iff.mp horder).1]
      rw [carry, object?, horder, if_neg (by simp), act_eq, if_neg hpass, horder] at h
      rw [Statement.head?, horder]
      exact heads_openTopic h
    | _ =>
      have hhead : (Statement.block c).head? = none := by rw [Statement.head?, horder]
      rw [hhead, Option.toList_none, List.foldl_nil]
      rw [carry] at h
      split at h
      · cases h
        rfl
      · refine heads_act (fun name header hopens => ?_) h
        rw [horder] at hopens
        cases hopens
  | command c more =>
    refine heads_act (fun name header horder => hs.1 ?_) h
    rw [← (mark_fold r.joiner c more).1]
    exact (orderOf_eq_openTopic_iff.mp horder).1
  | stray line => rw [(complain_eq_ok.mp h).2]; rfl
  | object o =>
    cases h
    rfl
  | unclosed o => cases h

theorem heads_foldlM (hs : ∀ s ∈ ss, s.IsProper) (h : ss.foldlM carry r = .ok r') :
    r'.script.topics.map Topic.head = (ss.filterMap Statement.head?).foldl withHead (r.script.topics.map Topic.head) := by
  induction ss generalizing r with
  | nil =>
    cases h
    rfl
  | cons s ss ih =>
    rw [List.foldlM_cons] at h
    obtain ⟨q, hq, h⟩ := bind_eq_ok.mp h
    obtain ⟨hproper, hrest⟩ := List.forall_mem_cons.mp hs
    rw [ih hrest h, heads_carry hproper hq, filterMap_cons_toList, List.foldl_append]

/-- A line that opens a block makes a statement by itself. -/
theorem block_mem_statements {w : Option (Command × List (List Char))} {is : List Item} (h : .rule c ∈ is)
    (hc : c.mark = '>' ∨ c.mark = '<') : .block c ∈ statements w is := by
  induction is generalizing w with
  | nil => cases h
  | cons i is ih =>
    rw [statements]
    rcases List.mem_cons.mp h with rfl | h
    · have hmark : c.mark ≠ '^' := by rcases hc with hc | hc <;> simp [hc]
      apply List.mem_append_left
      simp only [heard]
      rw [if_neg hmark, if_pos hc]
      exact List.mem_append_right _ List.mem_cons_self
    · exact List.mem_append_right _ (ih h)

end Reader

/-! ## Scripts -/

variable {strict : Bool} {origin : String} {script : Script}

theorem standsIn_of_block (h : .block c ∈ statementsOf text) : StandsIn text c := by
  rw [standsIn_iff]
  have hfirst : c ∈ (statementsOf text).filterMap Statement.first? := List.mem_filterMap.mpr ⟨_, h, rfl⟩
  exact (Reader.first_sublist none (itemsOf text)).subset hfirst

/-- An object has the number of the line that opens it. -/
theorem exists_of_mem_objectsIn {o : Object} (h : o ∈ objectsIn text) :
    ∃ c, StandsIn text c ∧ c.line = o.line ∧ c.OpensObject o.name o.language := by
  have hitem : .object o ∈ itemsOf text := by
    obtain ⟨i, hi, hobject⟩ := List.mem_filterMap.mp h
    cases i with
    | object p =>
      cases hobject
      exact hi
    | _ => cases hobject
  obtain ⟨p, hp, -⟩ | ⟨c, p, hc, hopens, hname, hlanguage, hline⟩ := Reader.opens_of_mem_items hitem
  · cases hp
  · obtain ⟨hmark, name, language, more, hwords, rfl⟩ := Reader.object?_eq_some_iff.mp hopens
    refine ⟨c, standsIn_iff.mpr (mem_rulesIn_iff.mpr hc), hline.symm, hmark, language, more, ?_, hlanguage.symm⟩
    rw [hname]
    exact hwords

/-- What is found first comes no later than anything else that could be. -/
theorem le_of_find? {hs : List (String × Nat)} (hs' : hs.Pairwise (·.2 ≤ ·.2)) {h k : String × Nat}
    (hfind : hs.find? (·.1 = h.1) = some h) (hk : k ∈ hs) (hname : k.1 = h.1) : h.2 ≤ k.2 := by
  obtain ⟨-, before, after, rfl, hbefore⟩ := List.find?_eq_some_iff_append.mp hfind
  rcases List.mem_append.mp hk with hk | hk
  · have hother := hbefore k hk
    simp [hname] at hother
  · rcases List.mem_cons.mp hk with rfl | hk
    · exact Nat.le_refl _
    · exact (List.pairwise_cons.mp (List.pairwise_append.mp hs').2.1).1 k hk

/-- A statement with a head is a line that opens the topic. -/
theorem head?_eq_some_iff {s : Statement} {h : String × Nat} :
    s.head? = some h ↔ ∃ c, s = .block c ∧ c.line = h.2 ∧ c.OpensTopic h.1 := by
  constructor
  · intro hs
    cases s with
    | block c =>
      rw [Statement.head?] at hs
      split at hs
      · next name header horder =>
        cases hs
        obtain ⟨hmark, hwords⟩ := Reader.orderOf_eq_openTopic_iff.mp horder
        exact ⟨c, rfl, rfl, hmark, name, header, hwords, rfl⟩
      · cases hs
    | _ => cases hs
  · rintro ⟨c, rfl, hline, hmark, word, edges, hwords, hname⟩
    rw [Statement.head?, Reader.orderOf_eq_openTopic_iff.mpr ⟨hmark, hwords⟩]
    exact congrArg some (Prod.ext hname hline)

/-- A topic but the home topic has the number of the first line that opens it. -/
theorem exists_of_head {h : String × Nat} (hfind : ((statementsOf text).filterMap Statement.head?).find? (·.1 = h.1) = some h) :
    ∃ c, StandsIn text c ∧ c.line = h.2 ∧ c.OpensTopic h.1 ∧ ∀ d ∈ rulesIn text, d.OpensTopic h.1 → c.line ≤ d.line := by
  obtain ⟨s, hs, hhead⟩ := List.mem_filterMap.mp (List.mem_of_find?_eq_some hfind)
  obtain ⟨c, rfl, hline, htopic⟩ := head?_eq_some_iff.mp hhead
  refine ⟨c, standsIn_of_block hs, hline, htopic, ?_⟩
  intro d hd hopens
  have hblock : .block d ∈ statementsOf text := Reader.block_mem_statements (mem_rulesIn_iff.mp hd) (.inl hopens.1)
  have hother : (h.1, d.line) ∈ (statementsOf text).filterMap Statement.head? :=
    List.mem_filterMap.mpr ⟨_, hblock, head?_eq_some_iff.mpr ⟨d, rfl, rfl, hopens⟩⟩
  have hascending : ((statementsOf text).filterMap Statement.head?).Pairwise (·.2 ≤ ·.2) := by
    refine List.Pairwise.filterMap _ ?_ (pairwise_line text)
    intro s s' hle k hk k' hk'
    obtain ⟨e, rfl, he, -⟩ := head?_eq_some_iff.mp hk
    obtain ⟨e', rfl, he', -⟩ := head?_eq_some_iff.mp hk'
    rw [← he, ← he']
    exact hle
  rw [hline]
  exact le_of_find? hascending hfind hother rfl

/-- What has been read has the numbers of the lines that declare it. -/
theorem numbered_of_read (h : read strict origin text = .ok script) : Numbered text script := by
  have hgroups : ∀ t ∈ script.topics, ∃ gs : List Group, (∀ g ∈ gs, g.IsWhole) ∧
      gs.flatMap Group.lines = (placedIn text).filter (·.topic = t.name) ∧ t.triggers = gs.map Group.trigger :=
    fun t ht => exists_groups_of_read h ht
  have hascending : ∀ {gs : List Group} {name : String}, gs.flatMap Group.lines = (placedIn text).filter (·.topic = name) →
      ((gs.map Group.trigger).map (·.pattern.number)).Pairwise (· < ·) ∧ ∀ g ∈ gs, g.trigger.Ascending := by
    intro gs name hlines
    apply ascending_groups
    rw [hlines]
    exact (pairwise_placedIn text).sublist (List.filter_sublist.map _)
  constructor
  case lines =>
    intro t ht u hu m hm
    obtain ⟨gs, hwhole, hlines, htriggers⟩ := hgroups t ht
    rw [htriggers] at hu
    obtain ⟨g, hg, rfl⟩ := List.mem_map.mp hu
    obtain ⟨l, hl, hmark, hline⟩ : ∃ l ∈ g.lines, l.mark = m.1 ∧ l.line = m.2 := by
      rcases List.mem_cons.mp hm with rfl | hm
      · exact ⟨g.head, List.mem_cons_self, (hwhole g hg).head, rfl⟩
      · obtain ⟨l, hl, hsame⟩ := exists_of_mem_own hm
        exact ⟨l, List.mem_cons_of_mem _ hl, hsame⟩
    have hplaced : l ∈ (placedIn text).filter (·.topic = t.name) := by
      rw [← hlines]
      exact List.mem_flatMap.mpr ⟨g, hg, hl⟩
    rw [← hmark, ← hline]
    exact declaredOn_of_placed (List.mem_of_mem_filter hplaced)
  case triggers =>
    intro t ht
    obtain ⟨gs, -, hlines, htriggers⟩ := hgroups t ht
    rw [htriggers]
    exact (hascending hlines).1
  case ascending =>
    intro t ht u hu
    obtain ⟨gs, -, hlines, htriggers⟩ := hgroups t ht
    rw [htriggers] at hu
    obtain ⟨g, hg, rfl⟩ := List.mem_map.mp hu
    exact (hascending hlines).2 g hg
  case objects =>
    intro o ho
    rw [objects_of_read h] at ho
    exact exists_of_mem_objectsIn ho
  case topics =>
    intro t ht hhome
    rw [read_eq] at h
    obtain ⟨r, hr, rfl⟩ := map_eq_ok.mp h
    have hheads := Reader.heads_foldlM (fun _ hs => isProper_of_mem_statementsOf hs) hr
    have hmem : t.head ∈ r.script.topics.map Topic.head := List.mem_map_of_mem ht
    rw [hheads] at hmem
    rcases mem_foldl_withHead hmem with hold | ⟨-, hfind⟩
    · exact absurd (congrArg Prod.fst (List.mem_singleton.mp hold)) hhome
    · exact exists_of_head hfind

/-- A comment, an object and a continuation stand among the lines, and a topic is opened twice. -/
theorem numbered_of_read_reopened :
    let text := "/* a\n+ b */\n+ hello *\n- Hi\n// c\n^ there\n> object o JS\n+ code\n< object\n> topic T\n+ bye\n" ++
      "% hi there\n- Bye\n- So long\n< topic\n> topic t\n+ b\n@ hello\n< topic"
    ∃ script, (read true "x" text = .ok script ∧
      script.objects.map (fun o => (o.name, o.line)) = [("o", 7)] ∧
      script.topics.map Topic.head = [("random", 0), ("t", 10)] ∧
      ((script.topics.flatMap (·.triggers)).flatMap Trigger.marked).map (fun l => (l.1, l.2.number)) =
        [('+', 3), ('-', 4), ('+', 11), ('%', 12), ('-', 13), ('-', 14), ('+', 17), ('@', 18)]) ∧
      Numbered text script := by
  intro text
  obtain ⟨script, hread, hnumbers⟩ : ∃ script, read true "x" text = .ok script ∧
      script.objects.map (fun o => (o.name, o.line)) = [("o", 7)] ∧
      script.topics.map Topic.head = [("random", 0), ("t", 10)] ∧
      ((script.topics.flatMap (·.triggers)).flatMap Trigger.marked).map (fun l => (l.1, l.2.number)) =
        [('+', 3), ('-', 4), ('+', 11), ('%', 12), ('-', 13), ('-', 14), ('+', 17), ('@', 18)] :=
    exists_ok_of_any (by decide +kernel)
  exact ⟨script, ⟨hread, hnumbers⟩, numbered_of_read hread⟩

end Repartee.Script
