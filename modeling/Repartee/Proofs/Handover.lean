/-
  Repartee.Proofs.Handover — what a load that fails has done to the macros.

  Objects are handed over one by one, for only its handler can tell whether it takes an object,
  and what a handler was given cannot be taken back.

  Proved:
  - One object after the other, the workshops receive what is handed over and nothing else, and
    a rejected object ends it (`loadObject_cases`, `handOver_eq_error`).
  - A load that fails for another reason than a rejected object leaves the macros as they were.
    At a rejected one, the batch was handed over up to that object, and no name changed but those
    accepted before it (`failed_load_macros`).
  - Names accepted before a rejected object can be called afterwards
    (`a_rejected_object_leaves_earlier_ones_callable`).
-/

import Repartee.Proofs.Loading

namespace Repartee

/-! ## Objects in the hands of their handlers -/

/-- What the handler of a language receives of these objects. -/
def codes (language : String) (os : List Script.Object) : List ObjectCode :=
  (os.filter (·.language = language)).map fun o => { name := o.name, code := o.code }

/-- The same subroutines and handlers, the handlers having received these objects in addition. -/
structure Handed (m m' : Macros) (os : List Script.Object) : Prop where
  subroutines : m'.subroutines = m.subroutines
  workshops : ∀ language, m'.workshops.find? language =
    (m.workshops.find? language).map fun w => { w with received := w.received ++ codes language os }

/-- The handler of the object does not take it once it has received these others. -/
def Refuses (m : Macros) (before : List Script.Object) (o : Script.Object) (err : MacroError) : Prop :=
  ∃ w, m.workshops.find? o.language = some w ∧
    w.handler.accept (w.received ++ codes o.language before) { name := o.name, code := o.code } = .error err

variable {m m' m'' : Macros} {os os' : List Script.Object} {o : Script.Object}

theorem codes_append (language : String) (os os' : List Script.Object) :
    codes language (os ++ os') = codes language os ++ codes language os' := by
  rw [codes, List.filter_append, List.map_append, codes, codes]

theorem Handed.trans (h : Handed m m' os) (h' : Handed m' m'' os') : Handed m m'' (os ++ os') := by
  refine ⟨h'.subroutines.trans h.subroutines, fun language => ?_⟩
  rw [h'.workshops, h.workshops]
  cases m.workshops.find? language with
  | none => rfl
  | some w => simp [codes_append, List.append_assoc]

theorem Handed.hasHandler (h : Handed m m' os) (language : String) :
    m'.hasHandler language = m.hasHandler language := by
  rw [Macros.hasHandler, Dict.contains, h.workshops, Option.isSome_map, Macros.hasHandler, Dict.contains]

theorem Handed.refuses {err : MacroError} (h : Handed m m' os) (hr : Refuses m' os' o err) :
    Refuses m (os ++ os') o err := by
  obtain ⟨w', hw', herr⟩ := hr
  rw [h.workshops] at hw'
  obtain ⟨w, hw, rfl⟩ := Option.map_eq_some_iff.mp hw'
  refine ⟨w, hw, ?_⟩
  rw [codes_append, ← List.append_assoc]
  exact herr

/-- An object with a handler is received either way, and named only if it is taken. -/
theorem loadObject_cases (h : m.hasHandler o.language = true) :
    ∃ m', Handed m m' [o] ∧
      ((m.loadObject o.name o.language o.code = (m', .ok ()) ∧ m'.objects = m.objects.put o.name o.language) ∨
        ∃ err, m.loadObject o.name o.language o.code = (m', .error err) ∧ m'.objects = m.objects ∧
          Refuses m [] o err) := by
  obtain ⟨w, hw⟩ := Option.isSome_iff_exists.mp h
  let workshops := m.workshops.put o.language { w with received := w.received ++ [⟨o.name, o.code⟩] }
  have hreceived : ∀ language, workshops.find? language =
      (m.workshops.find? language).map fun w => { w with received := w.received ++ codes language [o] } := by
    intro language
    rw [Dict.find?_put]
    by_cases hl : language = o.language
    · rw [if_pos hl, hl, hw]
      simp [codes]
    · have hl' : ¬ o.language = language := fun h => hl h.symm
      rw [if_neg hl]
      cases m.workshops.find? language <;> simp [codes, hl']
  cases haccept : w.handler.accept w.received ⟨o.name, o.code⟩ with
  | error err =>
    refine ⟨{ m with workshops }, ⟨rfl, hreceived⟩, .inr ⟨err, ?_, rfl, w, hw, ?_⟩⟩
    · simp only [Macros.loadObject, hw, haccept, workshops]
    · simpa [codes] using haccept
  | ok _ =>
    refine ⟨{ m with workshops, objects := m.objects.put o.name o.language }, ⟨rfl, hreceived⟩, .inl ⟨?_, rfl⟩⟩
    simp only [Macros.loadObject, hw, haccept, workshops]

/-- A batch that fails was handed over up to and with the object that is rejected, and named are those
before it. -/
theorem handOver_eq_error {e : LoadError} (h : Bot.handOver m os = (m', .error e)) :
    ∃ accepted rejected rest err,
      os.filter (fun o => m.hasHandler o.language) = accepted ++ rejected :: rest ∧
      e = .object rejected.name rejected.language err ∧ Refuses m accepted rejected err ∧
      Handed m m' (accepted ++ [rejected]) ∧
      m'.objects = accepted.foldl (fun d o => d.put o.name o.language) m.objects := by
  induction os generalizing m with
  | nil => cases h
  | cons o os ih =>
    rw [Bot.handOver] at h
    by_cases ho : m.hasHandler o.language = true
    · obtain ⟨m₁, hhanded, ⟨hload, hobjects⟩ | ⟨err, hload, hobjects, hrefuses⟩⟩ := loadObject_cases ho
      · simp only [if_pos ho, hload] at h
        obtain ⟨accepted, rejected, rest, err, hos, he, hrefuses, hrest, hnames⟩ := ih h
        refine ⟨o :: accepted, rejected, rest, err, ?_, he, hhanded.refuses hrefuses, hhanded.trans hrest, ?_⟩
        · simp only [hhanded.hasHandler] at hos
          simp [ho, hos]
        · rw [hnames, hobjects, List.foldl_cons]
      · simp only [if_pos ho, hload, Prod.mk.injEq, Except.error.injEq] at h
        obtain ⟨rfl, rfl⟩ := h
        exact ⟨[], o, os.filter fun o => m.hasHandler o.language, err, by simp [ho], rfl, hrefuses, hhanded, hobjects⟩
    · rw [if_neg ho] at h
      obtain ⟨accepted, rejected, rest, err, hos, hrest⟩ := ih h
      exact ⟨accepted, rejected, rest, err, by simp [ho, hos], hrest⟩

theorem find?_named {d : Dict String} {name : String} (h : name ∉ os.map (·.name)) :
    (os.foldl (fun d o => d.put o.name o.language) d).find? name = d.find? name := by
  induction os generalizing d with
  | nil => rfl
  | cons o os ih =>
    rw [List.map_cons, List.mem_cons, not_or] at h
    rw [List.foldl_cons, ih h.2, Dict.find?_put_of_ne d _ h.1]

/-! ## Loads that fail -/

/-- The handlers have received the objects of the new sources up to and with one that is rejected. A name
that was not accepted before it can be called exactly if it could be, in the same language. -/
def StoppedAtObject (b : Bot) (files : Files) (l : Load) (e : LoadError) (m : Macros) : Prop :=
  ∃ fresh accepted rejected rest err,
    b.fresh files l = .ok fresh ∧
    (fresh.flatMap (·.script.objects)).filter (fun o => b.macros.hasHandler o.language) =
      accepted ++ rejected :: rest ∧
    e = .object rejected.name rejected.language err ∧ Refuses b.macros accepted rejected err ∧
    Handed b.macros m (accepted ++ [rejected]) ∧
    ∀ name, name ∉ accepted.map (·.name) →
      m.isDefined name = b.macros.isDefined name ∧ m.objects.find? name = b.macros.objects.find? name

/-- A failed load leaves the macros as they were, unless an object was rejected. -/
theorem failed_load_macros {b : Bot} {files : Files} {l : Load} {e : LoadError} (h : (b.load files l).2 = .error e) :
    e.isRejection = false ∧ (b.load files l).1.macros = b.macros ∨
      StoppedAtObject b files l e (b.load files l).1.macros := by
  rcases Bot.load_cases b files l with ⟨e', he', hload⟩ | ⟨fresh, macros, e', hfresh, hhand, hload⟩ |
    ⟨fresh, rules, macros, -, -, -, hload⟩
  · rw [hload] at h
    cases h
    rw [hload]
    exact .inl ⟨he', rfl⟩
  · rw [hload] at h
    cases h
    rw [hload]
    obtain ⟨accepted, rejected, rest, err, hos, he, hrefuses, hhanded, hnames⟩ := handOver_eq_error hhand
    refine .inr ⟨fresh, accepted, rejected, rest, err, hfresh, hos, he, hrefuses, hhanded, fun name hname => ?_⟩
    have hfind : macros.objects.find? name = b.macros.objects.find? name := by rw [hnames, find?_named hname]
    refine ⟨?_, hfind⟩
    rw [Macros.isDefined, hhanded.subroutines, Dict.contains, Dict.contains, hfind]
    rfl
  · rw [hload] at h
    cases h

/-- A handler that does not take the code REJECT, and answers with the code it received for the name. -/
def choosy : Handler :=
  { accept := fun _ o =>
      if Text.trimmed o.code = "REJECT" then .error (.failed ("bad code for " ++ o.name)) else .ok ()
    run := fun received call u =>
      (.ok (((received.find? (·.name = call.name)).map fun o => Text.trimmed o.code).getD ""), u) }

/-- The first object of a text is taken, the second is not. -/
theorem failed_load_macros_at_second_object :
    let l := Load.text "b" "> object greet echo\nhi\n< object\n> object bad echo\nREJECT\n< object"
    let e := LoadError.object "bad" "echo" (.failed "bad code for bad")
    ∃ b : Bot, (b.load {} l).2 = .error e ∧
      (e.isRejection = false ∧ (b.load {} l).1.macros = b.macros ∨
        StoppedAtObject b {} l e (b.load {} l).1.macros) := by
  intro l e
  obtain ⟨b, -, hfails⟩ : ∃ b : Bot, Bot.new {} = .ok b ∧ ((b.setHandler "echo" choosy).load {} l).2 = .error e :=
    exists_ok_of_any (by decide +kernel)
  exact ⟨b.setHandler "echo" choosy, hfails, failed_load_macros hfails⟩

/-- A call that nothing answered is answered once a load has failed, for the object it names was accepted
before another one was rejected. -/
theorem a_rejected_object_leaves_earlier_ones_callable :
    let l := Load.text "b" "> object greet echo\nhi\n< object\n> object bad echo\nREJECT\n< object"
    ∃ b : Bot, Bot.new {} = .ok b ∧
      let before := ((b.setHandler "echo" choosy).load {} (.text "a" "+ greet\n- <call>greet</call>")).1
      let (after, outcome) := before.load {} l
      outcome = .error (.object "bad" "echo" (.failed "bad code for bad")) ∧
        before.macros.isDefined "greet" = false ∧ after.macros.isDefined "greet" = true ∧
        (before.reply "u" "greet").1.reply = "" ∧ (after.reply "u" "greet").1.reply = "hi" ∧
        (after.macros.workshops.find? "echo").map (·.received) = some [⟨"greet", "hi\n"⟩, ⟨"bad", "REJECT\n"⟩] :=
  exists_ok_of_any (by decide +kernel)

end Repartee
