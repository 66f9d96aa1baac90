/-
  Repartee.Proofs.Joined.Follows — a reader on the track of another.

  A reader that has read one text and goes on with a second does with it what a new reader does:
  it adds to its script what the new reader finds, under the same names. Line numbers differ, and
  so do the places of topics.

  Proved:
  - Carrying out an order, acting on a command and reading lines keep one reader on the track of the
    other (`follows_carryOut`, `follows_act`, `follows_readLines`).
-/

import Repartee.Proofs.Joined.Declared
import Repartee.Proofs.Orders
import Repartee.Proofs.Results

namespace Repartee

namespace Script

open Text

/-! ## What follows what -/

def Object.bare (o : Object) : Object := { o with line := 0 }

/-- The script `s` has what `a` and after it `b` have, but for the lines. -/
structure Gathers (a b s : Script) : Prop where
  version : s.version = (b.version <|> a.version)
  globals : s.globals = a.globals ++ b.globals
  vars : s.vars = a.vars ++ b.vars
  subs : s.subs = a.subs ++ b.subs
  arrays : s.arrays = a.arrays ++ b.arrays
  objects : s.objects.map Object.bare = a.objects.map Object.bare ++ b.objects.map Object.bare
  topics : Joins a.topics b.topics s.topics

/-- The same mode, in an object that is the same but for its line. -/
inductive Mode.Alike : Mode → Mode → Prop
  | rules : Alike .rules .rules
  | comment : Alike .comment .comment
  | object {o o' : Object} : o.bare = o'.bare → Alike (.object o) (.object o')

theorem Mode.Alike.eq_rules {m : Mode} (h : Alike .rules m) : m = .rules := by
  cases h
  rfl

theorem Mode.Alike.object_of_object {m m' : Mode} {o' : Object} (h : Alike m m') (hm : m' = .object o') :
    ∃ o, m = .object o := by
  cases h with
  | @object o => exact ⟨o, rfl⟩
  | _ => cases hm

inductive Command.Alike : Option Command → Option Command → Prop
  | none : Alike none none
  | some (mark : Char) (body : List Char) (line line' : Nat) : Alike (some ⟨mark, body, line⟩) (some ⟨mark, body, line'⟩)

/-- The reader `j`, which had read `a`, has come to where the new reader `r` is; both are strict or not. -/
structure Follows (strict : Bool) (a : Script) (r j : Reader) : Prop where
  new : r.strict = strict
  old : j.strict = strict
  joiner : j.joiner = r.joiner
  inBegin : j.inBegin = r.inBegin
  mode : Mode.Alike r.mode j.mode
  pending : Command.Alike r.pending j.pending
  current : ∃ name, (r.script.topics.map (·.name))[r.current]? = some name ∧
    (j.script.topics.map (·.name))[j.current]? = some name
  script : Gathers a r.script j.script

namespace Reader

variable {strict : Bool} {a : Script} {r r' j : Reader} {line : Nat}

/-! ## Edges of a header -/

/-- A word of a header says which edges follow, or it is an edge, or it is astray. -/
theorem readEdges_cons (t : Topic) (edge : Option Edge) (w : String) (ws : List String) :
    readEdges t edge (w :: ws) =
      if w = "includes" then readEdges t (some .includes) ws
      else if w = "inherits" then readEdges t (some .inherits) ws
      else
        match edge with
        | some e => readEdges (e.add t (lowercase w)) edge ws
        | none => (t, some (lowercase w)) :=
  readEdges.eq_def t edge (w :: ws)

/-- Reading a header leaves alone whatever no edge changes. -/
theorem readEdges_same {α : Type} {g : Topic → α} (hg : ∀ (e : Edge) t other, g (e.add t other) = g t) (t : Topic)
    (edge : Option Edge) (ws : List String) : g (readEdges t edge ws).1 = g t := by
  induction ws generalizing t edge with
  | nil => rfl
  | cons w ws ih =>
    rw [readEdges_cons]
    split
    · exact ih t _
    · split
      · exact ih t _
      · cases edge with
        | none => rfl
        | some e => exact (ih _ _).trans (hg e t _)

theorem name_readEdges (t : Topic) (edge : Option Edge) (ws : List String) : (readEdges t edge ws).1.name = t.name :=
  readEdges_same (fun e _ _ => by cases e <;> rfl) t edge ws

/-- Which word is astray is up to the header alone. -/
theorem stray_readEdges (t u : Topic) (edge : Option Edge) (ws : List String) :
    (readEdges t edge ws).2 = (readEdges u edge ws).2 := by
  induction ws generalizing t u edge with
  | nil => rfl
  | cons w ws ih =>
    rw [readEdges_cons, readEdges_cons]
    split
    · exact ih t u _
    · split
      · exact ih t u _
      · cases edge with
        | none => rfl
        | some e => exact ih _ _ _

theorem declared_add {d : Declared} {t u : Topic} (h : u.declared = d.append t.declared) (e : Edge) (other : String) :
    (e.add u other).declared = d.append (e.add t other).declared := by
  simp only [Topic.declared, Declared.append, Declared.mk.injEq] at h
  obtain ⟨hincludes, hinherits, htriggers⟩ := h
  cases e with
  | includes =>
    simp only [Edge.add, Topic.declared, Declared.append, foldl_pushUnique, ← hincludes, hinherits, htriggers]
  | inherits =>
    simp only [Edge.add, Topic.declared, Declared.append, foldl_pushUnique, ← hinherits, hincludes, htriggers]

theorem declared_readEdges {d : Declared} {t u : Topic} (h : u.declared = d.append t.declared) (edge : Option Edge)
    (ws : List String) : (readEdges u edge ws).1.declared = d.append (readEdges t edge ws).1.declared := by
  induction ws generalizing t u edge with
  | nil => exact h
  | cons w ws ih =>
    rw [readEdges_cons, readEdges_cons]
    split
    · exact ih h _
    · split
      · exact ih h _
      · cases edge with
        | none => exact h
        | some e => exact ih (declared_add h e _) _

/-! ## Triggers -/

theorem bare_attach (mark : Char) (l : Line) (t : Trigger) :
    (attach mark l t).bare = attach mark (Script.bare l) t.bare := by
  rw [attach, attach]
  by_cases hreply : mark = '-'
  · simp [hreply, Trigger.bare]
  · by_cases hcondition : mark = '*'
    · simp [hcondition, Trigger.bare]
    · by_cases hprevious : mark = '%'
      · simp [hprevious, Trigger.bare]
      · simp [hreply, hcondition, hprevious, Trigger.bare]

theorem editLast_concat (f : Trigger → Trigger) (ts : List Trigger) (t : Trigger) :
    editLast f (ts ++ [t]) = ts ++ [f t] := by
  have hlt : ts.length < (ts ++ [t]).length := by simp
  rw [editLast, List.length_append, List.length_singleton, Nat.add_sub_cancel, List.modify_eq_take_cons_drop hlt]
  simp

/-- A line is attached to the last trigger, and so to what the second part declares, if it declares any. -/
theorem bare_editLast_attach {ts us before : List Trigger} (hne : ts ≠ [])
    (h : us.map Trigger.bare = before ++ ts.map Trigger.bare) (mark : Char) (text : String) (line line' : Nat) :
    (editLast (attach mark ⟨text, line'⟩) us).map Trigger.bare =
      before ++ (editLast (attach mark ⟨text, line⟩) ts).map Trigger.bare := by
  obtain ⟨ts, t, rfl⟩ : ∃ start last, ts = start ++ [last] := ⟨_, _, (List.dropLast_concat_getLast hne).symm⟩
  rw [List.map_append, ← List.append_assoc] at h
  obtain ⟨us, last, rfl, hus, hlast⟩ := List.map_eq_append_iff.mp h
  obtain ⟨u, rfl, hu⟩ := List.map_eq_singleton_iff.mp hlast
  rw [editLast_concat, editLast_concat, List.map_append, List.map_append, hus, List.append_assoc, List.map_singleton,
    List.map_singleton, bare_attach, bare_attach, hu]
  rfl

/-! ## The place of a topic -/

/-- Finding the place of a topic adds it if it is new. -/
theorem exists_locate (r : Reader) (name : String) (line : Nat) :
    ∃ index t, (withName r.script.topics name line)[index]? = some t ∧ t.name = name ∧
      r.locate name line =
        ({ r with script := { r.script with topics := withName r.script.topics name line } }, index) := by
  rw [locate, withName]
  cases hfind : r.script.topics.findIdx? (·.name = name) with
  | some index =>
    obtain ⟨hlt, hname, -⟩ := List.findIdx?_eq_some_iff_getElem.mp hfind
    have hany : r.script.topics.any (·.name = name) = true :=
      List.any_eq_true.mpr ⟨_, List.getElem_mem hlt, hname⟩
    refine ⟨index, r.script.topics[index], ?_, by simpa using hname, ?_⟩
    · rw [if_pos hany, List.getElem?_eq_getElem hlt]
    · rw [if_pos hany]
  | none =>
    have hany : ¬ r.script.topics.any (·.name = name) = true := by
      simpa [List.any_eq_true] using List.findIdx?_eq_none_iff.mp hfind
    refine ⟨r.script.topics.length, { name, line }, ?_, rfl, ?_⟩
    · rw [if_neg hany, List.getElem?_append_right (Nat.le_refl _), Nat.sub_self]
      rfl
    · rw [if_neg hany]

/-! ## Orders -/

theorem nameAt_withName {ts : List Topic} {i : Nat} {name : String} (h : (ts.map (·.name))[i]? = some name)
    (other : String) (line : Nat) : ((withName ts other line).map (·.name))[i]? = some name := by
  rw [withName]
  split
  · exact h
  · rw [List.map_append, List.getElem?_append_left (List.getElem?_eq_some_iff.mp h).1]
    exact h

theorem follows_complain (h : Follows strict a r j) {fault : Fault} (hr : r.complain line fault = .ok r') (line' : Nat) :
    ∃ j', j.complain line' fault = .ok j' ∧ Follows strict a r' j' := by
  obtain ⟨hstrict, rfl⟩ := complain_eq_ok.mp hr
  exact ⟨j, complain_eq_ok.mpr ⟨(h.old.trans h.new.symm).trans hstrict, rfl⟩, h⟩

theorem follows_editTopic (h : Follows strict a r j) {i k : Nat} {t u : Topic} {f g : Topic → Topic}
    (ht : r.script.topics[i]? = some t) (hu : j.script.topics[k]? = some u) (hname : t.name = u.name)
    (hf : (f t).name = t.name) (hg : (g u).name = u.name)
    (halike : ∀ d : Declared, u.declared = d.append t.declared → (g u).declared = d.append (f t).declared) :
    Follows strict a (r.editTopic i f) (j.editTopic k g) := by
  obtain ⟨name, hr, hj⟩ := h.current
  refine { h with
    current := ⟨name, ?_, ?_⟩
    script := { h.script with topics := h.script.topics.modify ht hu hname hf hg halike } }
  · rwa [editTopic, map_name_modify ht hf]
  · rwa [editTopic, map_name_modify hu hg]

theorem name_editTopic {t : Topic} {i : Nat} {f : Topic → Topic} (ht : r.script.topics[i]? = some t)
    (hf : (f t).name = t.name) : ((r.editTopic i f).script.topics.map (·.name))[i]? = some t.name := by
  rw [editTopic, map_name_modify ht hf, List.getElem?_map, ht, Option.map_some]

theorem follows_goOn (h : Follows strict a r j) {i k : Nat} {t u : Topic} (ht : r.script.topics[i]? = some t)
    (hu : j.script.topics[k]? = some u) (hname : t.name = u.name) {header : List String}
    (hr : r.goOn i line (readEdges t none header) = .ok r') (line' : Nat) :
    ∃ j', j.goOn k line' (readEdges u none header) = .ok j' ∧ Follows strict a r' j' := by
  have ht' := name_readEdges t none header
  have hu' := name_readEdges u none header
  have hstray := stray_readEdges t u none header
  have hedited : Follows strict a (r.editTopic i fun _ => (readEdges t none header).1)
      (j.editTopic k fun _ => (readEdges u none header).1) :=
    follows_editTopic h ht hu hname ht' hu' fun d hd => declared_readEdges hd none header
  generalize readEdges t none header = found at hr ht' hstray hedited
  generalize readEdges u none header = found' at hu' hstray hedited ⊢
  obtain ⟨topic, stray⟩ := found
  obtain ⟨topic', stray'⟩ := found'
  cases hstray
  cases stray with
  | none =>
    cases hr
    refine ⟨_, rfl, { hedited with current := ⟨t.name, name_editTopic ht ht', ?_⟩ }⟩
    rw [hname]
    exact name_editTopic hu hu'
  | some word => exact follows_complain hedited hr line'

theorem follows_openTopic (h : Follows strict a r j) {name : String} {header : List String}
    (hr : r.openTopic name header line = .ok r') (line' : Nat) :
    ∃ j', j.openTopic name header line' = .ok j' ∧ Follows strict a r' j' := by
  obtain ⟨i, t, ht, htname, hi⟩ := exists_locate r (lowercase name) line
  obtain ⟨k, u, hu, huname, hk⟩ := exists_locate j (lowercase name) line'
  rw [openTopic_eq, hi] at hr
  rw [openTopic_eq, hk]
  simp only [List.getD_eq_getElem?_getD, ht, hu, Option.getD_some] at hr ⊢
  obtain ⟨current, hrname, hjname⟩ := h.current
  refine follows_goOn ?_ ht hu (htname.trans huname.symm) hr line'
  exact { h with
    current := ⟨current, nameAt_withName hrname _ _, nameAt_withName hjname _ _⟩
    script := { h.script with topics := h.script.topics.withName _ _ _ } }

theorem follows_trigger (h : Follows strict a r j) (text : String) (line line' : Nat) :
    Follows strict a
      (r.editTopic r.current fun t => { t with triggers := t.triggers ++ [{ pattern := ⟨text, line⟩ }] })
      (j.editTopic j.current fun t => { t with triggers := t.triggers ++ [{ pattern := ⟨text, line'⟩ }] }) := by
  obtain ⟨name, hr, hj⟩ := h.current
  rw [List.getElem?_map] at hr hj
  obtain ⟨t, ht, rfl⟩ := Option.map_eq_some_iff.mp hr
  obtain ⟨u, hu, hname⟩ := Option.map_eq_some_iff.mp hj
  refine follows_editTopic h ht hu hname.symm rfl rfl fun d hd => ?_
  simp only [Topic.declared, Declared.append, Declared.mk.injEq] at hd
  simp only [Topic.declared, Declared.append, List.map_append, hd, List.append_assoc]
  rfl

theorem follows_attachment (h : Follows strict a r j) {mark : Char} {text : String}
    (hr : r.carryOut line (.attachment mark text) = .ok r') (line' : Nat) :
    ∃ j', j.carryOut line' (.attachment mark text) = .ok j' ∧ Follows strict a r' j' := by
  obtain ⟨name, hrname, hjname⟩ := h.current
  rw [List.getElem?_map] at hrname hjname
  obtain ⟨t, ht, rfl⟩ := Option.map_eq_some_iff.mp hrname
  obtain ⟨u, hu, hname⟩ := Option.map_eq_some_iff.mp hjname
  have hdeclared : u.declared = (declaredIn a.topics t.name).append t.declared := by
    rw [← h.script.topics.whole.declaredIn_eq hu, ← h.script.topics.part.declaredIn_eq ht, hname]
    exact h.script.topics.declared t.name
  have htriggers : u.triggers.map Trigger.bare =
      (declaredIn a.topics t.name).triggers ++ t.triggers.map Trigger.bare := congrArg Declared.triggers hdeclared
  rw [carryOut] at hr ⊢
  simp only [currentTopic, List.getD_eq_getElem?_getD, ht, hu, Option.getD_some] at hr ⊢
  by_cases hnone : t.triggers.isEmpty = true
  · rw [if_pos hnone] at hr
    cases hr
  · have hne : t.triggers ≠ [] := fun hnil => hnone (List.isEmpty_iff.mpr hnil)
    have hne' : ¬ u.triggers.isEmpty = true := by
      intro hempty
      simp [List.isEmpty_iff.mp hempty, hne] at htriggers
    rw [if_neg hnone] at hr
    rw [if_neg hne']
    cases hr
    refine ⟨_, rfl, follows_editTopic h ht hu hname.symm rfl rfl fun d hd => ?_⟩
    simp only [Topic.declared, Declared.append, Declared.mk.injEq] at hd
    simp only [Topic.declared, Declared.append, hd, bare_editLast_attach hne hd.2.2 mark text line line']

/-- What the new reader carries out, the reader on its track carries out too. -/
theorem follows_carryOut (h : Follows strict a r j) {o : Order} (hr : r.carryOut line o = .ok r') (line' : Nat) :
    ∃ j', j.carryOut line' o = .ok j' ∧ Follows strict a r' j' := by
  cases o with
  | version value =>
    cases hr
    exact ⟨_, rfl, { h with script := { h.script with version := rfl } }⟩
  | joiner joiner =>
    cases hr
    exact ⟨_, rfl, { h with joiner := rfl }⟩
  | global name value =>
    cases hr
    refine ⟨_, rfl, { h with script := { h.script with globals := ?_ } }⟩
    rw [h.script.globals, List.append_assoc]
  | var name value =>
    cases hr
    refine ⟨_, rfl, { h with script := { h.script with vars := ?_ } }⟩
    rw [h.script.vars, List.append_assoc]
  | sub name value =>
    cases hr
    refine ⟨_, rfl, { h with script := { h.script with subs := ?_ } }⟩
    rw [h.script.subs, List.append_assoc]
  | array name items =>
    cases hr
    refine ⟨_, rfl, { h with script := { h.script with arrays := ?_ } }⟩
    rw [h.script.arrays, List.append_assoc]
  | openTopic name header => exact follows_openTopic h hr line'
  | openObject name language =>
    cases hr
    exact ⟨_, rfl, { h with mode := .object rfl }⟩
  | openBegin =>
    cases hr
    exact ⟨_, rfl, { h with inBegin := rfl }⟩
  | closeTopic =>
    cases hr
    obtain ⟨t, ht, hhome⟩ := h.script.topics.part.home
    obtain ⟨u, hu, hhome'⟩ := h.script.topics.whole.home
    refine ⟨_, rfl, { h with current := ⟨homeTopic, ?_, ?_⟩ }⟩
    · rw [List.getElem?_map, ht, Option.map_some, hhome]
    · rw [List.getElem?_map, hu, Option.map_some, hhome']
  | closeBegin =>
    cases hr
    exact ⟨_, rfl, { h with inBegin := rfl }⟩
  | trigger text =>
    cases hr
    exact ⟨_, rfl, follows_trigger h text line line'⟩
  | attachment mark text => exact follows_attachment h hr line'
  | impossible fault => cases hr
  | odd fault => exact follows_complain h hr line'

theorem follows_act (h : Follows strict a r j) {mark : Char} {body : List Char} (hr : r.act ⟨mark, body, line⟩ = .ok r')
    (line' : Nat) : ∃ j', j.act ⟨mark, body, line'⟩ = .ok j' ∧ Follows strict a r' j' := by
  have hpasses : j.passesOver mark = r.passesOver mark := by rw [passesOver, passesOver, h.inBegin]
  rw [act_eq] at hr ⊢
  simp only [hpasses] at hr ⊢
  by_cases hpass : r.passesOver mark = true
  · rw [if_pos hpass] at hr ⊢
    cases hr
    exact ⟨j, rfl, h⟩
  · rw [if_neg hpass] at hr ⊢
    exact follows_carryOut h hr line'

/-! ## Lines -/

theorem follows_flush (h : Follows strict a r j) (hr : r.flush = .ok r') :
    ∃ j', j.flush = .ok j' ∧ Follows strict a r' j' := by
  have hidle : Follows strict a { r with pending := none } { j with pending := none } := { h with pending := .none }
  have hpending := h.pending
  rw [flush] at hr ⊢
  generalize r.pending = p at hr hpending
  generalize j.pending = q at hpending ⊢
  cases hpending with
  | none =>
    cases hr
    exact ⟨j, rfl, h⟩
  | some mark body line line' => exact follows_act hidle hr line'

theorem follows_command (h : Follows strict a r j) {mark : Char} {body : List Char}
    (hr : r.command ⟨mark, body, line⟩ = .ok r') (line' : Nat) :
    ∃ j', j.command ⟨mark, body, line'⟩ = .ok j' ∧ Follows strict a r' j' := by
  obtain ⟨flushed, hflush, hr⟩ := bind_eq_ok.mp hr
  obtain ⟨flushed', hflush', h'⟩ := follows_flush h hflush
  rw [command, hflush']
  change ∃ j', (if mark = '>' ∨ mark = '<' then _ else _) = Except.ok j' ∧ _
  simp only at hr
  by_cases hblock : mark = '>' ∨ mark = '<'
  · rw [if_pos hblock] at hr ⊢
    exact follows_act h' hr line'
  · rw [if_neg hblock] at hr ⊢
    cases hr
    exact ⟨_, rfl, { h' with pending := .some mark body line line' }⟩

theorem follows_continueWith (h : Follows strict a r j) {body : List Char} (hr : r.continueWith body line = .ok r')
    (line' : Nat) : ∃ j', j.continueWith body line' = .ok j' ∧ Follows strict a r' j' := by
  have hpending := h.pending
  rw [continueWith] at hr ⊢
  generalize r.pending = p at hr hpending
  generalize j.pending = q at hpending ⊢
  cases hpending with
  | none => exact follows_complain h hr line'
  | some mark before at_ at' =>
    have hseparator : j.separator ⟨mark, before, at'⟩ = r.separator ⟨mark, before, at_⟩ := by
      rw [separator, separator, h.joiner]
    cases hr
    refine ⟨_, rfl, { h with pending := ?_ }⟩
    rw [hseparator]
    exact .some mark _ at_ at'

theorem follows_ruleLine (h : Follows strict a r j) {cs : List Char} (hr : r.ruleLine line cs = .ok r') (line' : Nat) :
    ∃ j', j.ruleLine line' cs = .ok j' ∧ Follows strict a r' j' := by
  rw [ruleLine.eq_def] at hr ⊢
  by_cases hopens : startsWith "/*" cs = true
  · rw [if_pos hopens] at hr ⊢
    cases hr
    refine ⟨_, rfl, { h with mode := ?_ }⟩
    cases endsComment cs with
    | true => exact .rules
    | false => exact .comment
  · rw [if_neg hopens] at hr ⊢
    cases cs with
    | nil =>
      cases hr
      exact ⟨j, rfl, h⟩
    | cons mark rest =>
      simp only at hr ⊢
      by_cases hslashes : startsWith "//" (mark :: rest) = true
      · rw [if_pos hslashes] at hr ⊢
        cases hr
        exact ⟨j, rfl, h⟩
      · rw [if_neg hslashes] at hr ⊢
        by_cases hcontinues : mark = '^'
        · rw [if_pos hcontinues] at hr ⊢
          exact follows_continueWith h hr line'
        · rw [if_neg hcontinues] at hr ⊢
          exact follows_command h hr line'

theorem follows_objectLine (h : Follows strict a r j) {o o' : Object} (ho : o.bare = o'.bare) (raw : List Char) :
    Follows strict a (r.objectLine o raw) (j.objectLine o' raw) := by
  rw [objectLine, objectLine]
  by_cases hcloses : closesObject raw = true
  · rw [if_pos hcloses, if_pos hcloses]
    refine { h with mode := .rules, script := { h.script with objects := ?_ } }
    rw [List.map_append, List.map_append, h.script.objects, List.append_assoc, List.map_singleton, List.map_singleton,
      ho]
  · rw [if_neg hcloses, if_neg hcloses]
    simp only [Object.bare, Object.mk.injEq] at ho
    refine { h with mode := .object ?_ }
    simp only [Object.bare, ho]

theorem follows_physicalLine (h : Follows strict a r j) {raw : List Char} (hr : r.physicalLine line raw = .ok r')
    (line' : Nat) : ∃ j', j.physicalLine line' raw = .ok j' ∧ Follows strict a r' j' := by
  have hmode := h.mode
  rw [physicalLine] at hr ⊢
  generalize r.mode = m at hr hmode
  generalize j.mode = m' at hmode ⊢
  cases hmode with
  | rules => exact follows_ruleLine h hr line'
  | comment =>
    cases hr
    refine ⟨_, rfl, ?_⟩
    by_cases hends : endsComment (trim raw) = true
    · rw [if_pos hends, if_pos hends]
      exact { h with mode := .rules }
    · rw [if_neg hends, if_neg hends]
      exact h
  | object ho =>
    cases hr
    exact ⟨_, rfl, follows_objectLine h ho raw⟩

theorem follows_readLines (h : Follows strict a r j) {raws : List (List Char)} (hr : r.readLines line raws = .ok r')
    (line' : Nat) : ∃ j', j.readLines line' raws = .ok j' ∧ Follows strict a r' j' := by
  induction raws generalizing r j line line' with
  | nil =>
    cases hr
    exact ⟨j, rfl, h⟩
  | cons raw raws ih =>
    obtain ⟨next, hnext, hr⟩ := bind_eq_ok.mp hr
    obtain ⟨next', hnext', h'⟩ := follows_physicalLine h hnext line'
    obtain ⟨j', hj', hlast⟩ := ih h' hr (line' + 1)
    exact ⟨j', bind_eq_ok.mpr ⟨next', hnext', hj'⟩, hlast⟩

theorem finish_eq_ok {s : Script} :
    r.finish = .ok s ↔ ∃ r', r.flush = .ok r' ∧ (∀ o, r'.mode ≠ .object o) ∧ r'.script = s := by
  rw [finish, bind_eq_ok]
  constructor
  · rintro ⟨r', hflush, h⟩
    refine ⟨r', hflush, ?_⟩
    cases hmode : r'.mode with
    | object o => simp [hmode] at h
    | _ => simpa [hmode] using h
  · rintro ⟨r', hflush, hmode, h⟩
    refine ⟨r', hflush, ?_⟩
    rw [h]
    cases hm : r'.mode with
    | object o => exact absurd hm (hmode o)
    | _ => rfl

end Reader

end Script

end Repartee
