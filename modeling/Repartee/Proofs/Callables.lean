/-
  Repartee.Proofs.Callables — which names can be called, and what a call of them runs.

  Three tables decide it: the subroutines by name, the handlers by language, and the language of each
  object. Each is changed by itself, and a call goes from the third to the second. An object is written
  down only once a handler has taken it, and handlers are replaced but never taken away, so that no
  object is left without one.

  Proved:
  - What one edit does to each table (`find?_subroutines_edit`, `find?_workshops_edit`,
    `find?_objects_edit`), and that it leaves no object without a handler (`handled_edit`).
  - What the tables hold after any edits: the last entry that the edits made
    (`find?_subroutines_made`, `find?_workshops_made`, `find?_objects_made`).
  - A name is defined if and only if a call of it runs something, and the edits say what
    (`isDefined_predicts`).
-/

import Mathlib.Data.List.Induction
import Repartee.Proofs.Handover
import Repartee.Turn.Render

namespace Repartee

/-- What is done to macros. -/
inductive MacroEdit where
  | setSubroutine (name : String) (code : Subroutine)
  | removeSubroutine (name : String)
  | setHandler (language : String) (handler : Handler)
  | loadObject (name language code : String)

namespace MacroEdit

/-- What the edit says of the subroutine of a name: which it is, or that there is none. -/
def subroutine? (name : String) : MacroEdit → Option (Option Subroutine)
  | .setSubroutine n code => if name = n then some (some code) else none
  | .removeSubroutine n => if name = n then some none else none
  | _ => none

def handler? (language : String) : MacroEdit → Option Handler
  | .setHandler l handler => if language = l then some handler else none
  | _ => none

/-- The object that the edit hands over in a language. -/
def object? (language : String) : MacroEdit → Option ObjectCode
  | .loadObject name l code => if language = l then some ⟨name, code⟩ else none
  | _ => none

end MacroEdit

namespace Macros

def edit (m : Macros) : MacroEdit → Macros
  | .setSubroutine name code => m.setSubroutine name code
  | .removeSubroutine name => m.removeSubroutine name
  | .setHandler language handler => m.setHandler language handler
  | .loadObject name language code => (m.loadObject name language code).1

/-- The macros after some edits, from none. -/
def made (edits : List MacroEdit) : Macros := edits.foldl edit {}

/-- The name and the language of the object, if the edit loads one and succeeds. -/
def loaded? (m : Macros) : MacroEdit → Option (String × String)
  | .loadObject name language code =>
    if (m.loadObject name language code).2 = .ok () then some (name, language) else none
  | _ => none

end Macros

/-! ## What edits say -/

section History

variable (edits : List MacroEdit)

/-- The subroutine of a name that is currently set. -/
def currentSubroutine (name : String) : Option Subroutine := (edits.reverse.findSome? (·.subroutine? name)).join

def currentHandler (language : String) : Option Handler := edits.reverse.findSome? (·.handler? language)

/-- The edits since the handler of a language was set last. -/
def sinceHandler (language : String) : List MacroEdit :=
  (edits.reverse.takeWhile fun e => (e.handler? language).isNone).reverse

/-- The current handler of a language, and what it was handed. -/
def currentWorkshop (language : String) : Option Workshop :=
  (currentHandler edits language).map fun handler =>
    { handler, received := (sinceHandler edits language).filterMap (·.object? language) }

/-- The loads that succeed, in order. -/
def loadsFrom (m : Macros) : List MacroEdit → List (String × String)
  | [] => []
  | e :: es => (m.loaded? e).toList ++ loadsFrom (m.edit e) es

/-- The language of the last load of a name that succeeded. -/
def lastLanguage (name : String) : Option String :=
  ((loadsFrom {} edits).reverse.find? (name = ·.1)).map (·.2)

/-- What the current handler of the language of the last load of a name runs. -/
def objectCode (name : String) : Option Subroutine :=
  (lastLanguage edits name).bind fun language =>
    (currentWorkshop edits language).map fun w => w.handler.run w.received

end History

variable {m m' : Macros} {e : MacroEdit} {edits : List MacroEdit} {name language : String}

theorem made_concat (edits : List MacroEdit) (e : MacroEdit) :
    Macros.made (edits ++ [e]) = (Macros.made edits).edit e := by
  unfold Macros.made
  rw [List.foldl_append]
  rfl

/-! ## One edit -/

/-- The same subroutines, handlers and objects, whatever the handlers have received. -/
structure SameTables (m m' : Macros) : Prop where
  subroutines : m'.subroutines = m.subroutines
  handlers : ∀ language, (m'.workshops.find? language).map (·.handler) = (m.workshops.find? language).map (·.handler)
  objects : m'.objects = m.objects

/-- Every object is in a language that has a handler. -/
def Handled (m : Macros) : Prop :=
  ∀ object language, m.objects.find? object = some language → m.hasHandler language = true

/-- A load fails for want of a handler, or its handler receives the object, and takes it or not. -/
theorem loadObject_tables (m : Macros) (name language code : String) :
    (m.workshops.find? language = none ∧ m.loadObject name language code = (m, .error (.noHandler language))) ∨
      ∃ w m' outcome, m.workshops.find? language = some w ∧ m.loadObject name language code = (m', outcome) ∧
        m'.subroutines = m.subroutines ∧
        m'.workshops = m.workshops.put language { w with received := w.received ++ [⟨name, code⟩] } ∧
        m'.objects = if outcome = .ok () then m.objects.put name language else m.objects := by
  cases hw : m.workshops.find? language with
  | none => exact .inl ⟨rfl, by simp only [Macros.loadObject, hw]⟩
  | some w =>
    right
    let workshops := m.workshops.put language { w with received := w.received ++ [⟨name, code⟩] }
    cases haccept : w.handler.accept w.received ⟨name, code⟩ with
    | error err =>
      refine ⟨w, { m with workshops }, .error err, rfl, ?_, rfl, rfl, rfl⟩
      simp only [Macros.loadObject, hw, haccept, workshops]
    | ok done =>
      refine ⟨w, { m with workshops, objects := m.objects.put name language }, .ok (), rfl, ?_, rfl, rfl, rfl⟩
      simp only [Macros.loadObject, hw, haccept, workshops]

theorem sameTables_of_refused {code : String} {err : MacroError}
    (h : (m.loadObject name language code).2 = .error err) : SameTables m (m.loadObject name language code).1 := by
  rcases loadObject_tables m name language code with ⟨-, hload⟩ | ⟨w, m', outcome, hw, hload, hsub, hshop, hobj⟩
  · rw [hload]
    exact ⟨rfl, fun _ => rfl, rfl⟩
  · rw [hload] at h ⊢
    subst h
    refine ⟨hsub, ?_, hobj⟩
    intro l
    show (m'.workshops.find? l).map _ = _
    rw [hshop, Dict.find?_put]
    by_cases hl : l = language
    · rw [if_pos hl, hl, hw]
      rfl
    · rw [if_neg hl]

theorem find?_subroutines_edit (m : Macros) (e : MacroEdit) (name : String) :
    (m.edit e).subroutines.find? name = (e.subroutine? name).getD (m.subroutines.find? name) := by
  cases e with
  | setSubroutine n code =>
    show (m.subroutines.put n code).find? name = _
    rw [Dict.find?_put]
    by_cases hn : name = n <;> simp [MacroEdit.subroutine?, hn]
  | removeSubroutine n =>
    show (m.subroutines.erase n).find? name = _
    rw [Dict.find?_erase]
    by_cases hn : name = n <;> simp [MacroEdit.subroutine?, hn]
  | setHandler l handler => rfl
  | loadObject n l code =>
    show (m.loadObject n l code).1.subroutines.find? name = _
    rcases loadObject_tables m n l code with ⟨-, hload⟩ | ⟨w, m', outcome, -, hload, hsub, -, -⟩
    · rw [hload]
      rfl
    · rw [hload, hsub]
      rfl

/-- A new handler has received nothing; otherwise a handler receives what is loaded in its language. -/
theorem find?_workshops_edit (m : Macros) (e : MacroEdit) (language : String) :
    (m.edit e).workshops.find? language =
      match e.handler? language with
      | some handler => some { handler }
      | none => (m.workshops.find? language).map fun w =>
        { w with received := w.received ++ (e.object? language).toList } := by
  have hsame : (m.workshops.find? language).map (fun w => { w with received := w.received ++ [] }) =
      m.workshops.find? language := by
    cases m.workshops.find? language <;> simp
  cases e with
  | setHandler l handler =>
    show (m.workshops.put l { handler }).find? language = _
    rw [Dict.find?_put]
    by_cases hl : language = l
    · simp [MacroEdit.handler?, hl]
    · simp only [MacroEdit.handler?, if_neg hl]
      exact hsame.symm
  | loadObject n l code =>
    show (m.loadObject n l code).1.workshops.find? language = _
    simp only [MacroEdit.handler?, MacroEdit.object?]
    rcases loadObject_tables m n l code with ⟨hnone, hload⟩ | ⟨w, m', outcome, hw, hload, -, hshop, -⟩
    · rw [hload]
      by_cases hl : language = l
      · simp [hl, hnone]
      · rw [if_neg hl]
        exact hsame.symm
    · rw [hload, hshop, Dict.find?_put]
      by_cases hl : language = l
      · simp [hl, hw]
      · rw [if_neg hl, if_neg hl]
        exact hsame.symm
  | setSubroutine n code => exact hsame.symm
  | removeSubroutine n => exact hsame.symm

theorem find?_objects_edit (m : Macros) (e : MacroEdit) (name : String) :
    (m.edit e).objects.find? name =
      (((m.loaded? e).filter (name = ·.1)).map (·.2)).or (m.objects.find? name) := by
  cases e with
  | loadObject n l code =>
    show (m.loadObject n l code).1.objects.find? name = _
    simp only [Macros.loaded?]
    rcases loadObject_tables m n l code with ⟨-, hload⟩ | ⟨w, m', outcome, -, hload, -, -, hobj⟩
    · rw [hload]
      rfl
    · rw [hload, hobj]
      by_cases hok : outcome = .ok ()
      · rw [if_pos hok, if_pos hok, Dict.find?_put]
        by_cases hn : name = n <;> simp [Option.filter, hn]
      · rw [if_neg hok, if_neg hok]
        rfl
  | _ => rfl

theorem hasHandler_edit (m : Macros) (e : MacroEdit) (h : m.hasHandler language = true) :
    (m.edit e).hasHandler language = true := by
  unfold Macros.hasHandler Dict.contains at h ⊢
  rw [find?_workshops_edit]
  cases e.handler? language with
  | some handler => rfl
  | none => simpa using h

theorem hasHandler_of_loaded? (h : m.loaded? e = some (name, language)) : (m.edit e).hasHandler language = true := by
  cases e with
  | loadObject n l code =>
    simp only [Macros.loaded?] at h
    rcases loadObject_tables m n l code with ⟨-, hload⟩ | ⟨w, m', outcome, -, hload, -, hshop, -⟩
    · rw [hload] at h
      cases h
    · have hl : l = language := by
        split at h
        · exact congrArg Prod.snd (Option.some.inj h)
        · cases h
      show (m.loadObject n l code).1.hasHandler language = true
      rw [hload, Macros.hasHandler, Dict.contains, hshop, hl, Dict.find?_put_self]
      rfl
  | _ => cases h

/-- No edit leaves an object without a handler. -/
theorem handled_edit (h : Handled m) (e : MacroEdit) : Handled (m.edit e) := by
  intro object language hobject
  rw [find?_objects_edit, Option.or_eq_some_iff] at hobject
  rcases hobject with hnew | ⟨-, hold⟩
  · obtain ⟨⟨n, l⟩, hfilter, rfl⟩ := Option.map_eq_some_iff.mp hnew
    exact hasHandler_of_loaded? (Option.filter_eq_some_iff.mp hfilter).1
  · exact hasHandler_edit m e (h object language hold)

/-! ## Any edits -/

theorem handled_made (edits : List MacroEdit) : Handled (Macros.made edits) := by
  induction edits using List.reverseRecOn with
  | nil =>
    intro object language hobject
    cases hobject
  | append_singleton edits e ih =>
    rw [made_concat]
    exact handled_edit ih e

theorem find?_subroutines_made (edits : List MacroEdit) (name : String) :
    (Macros.made edits).subroutines.find? name = currentSubroutine edits name := by
  induction edits using List.reverseRecOn with
  | nil => rfl
  | append_singleton edits e ih =>
    rw [made_concat, find?_subroutines_edit, ih]
    unfold currentSubroutine
    rw [List.reverse_concat, List.findSome?_cons]
    cases e.subroutine? name <;> rfl

theorem sinceHandler_concat (edits : List MacroEdit) (e : MacroEdit) (language : String) :
    sinceHandler (edits ++ [e]) language =
      if (e.handler? language).isNone then sinceHandler edits language ++ [e] else [] := by
  unfold sinceHandler
  rw [List.reverse_append, List.reverse_singleton, List.singleton_append, List.takeWhile_cons]
  split
  · rw [List.reverse_cons]
  · rfl

theorem find?_workshops_made (edits : List MacroEdit) (language : String) :
    (Macros.made edits).workshops.find? language = currentWorkshop edits language := by
  induction edits using List.reverseRecOn with
  | nil => rfl
  | append_singleton edits e ih =>
    rw [made_concat, find?_workshops_edit, ih]
    unfold currentWorkshop currentHandler
    rw [List.reverse_concat, List.findSome?_cons, sinceHandler_concat]
    cases hhandler : e.handler? language with
    | some handler => rfl
    | none =>
      have hobject : [e].filterMap (·.object? language) = (e.object? language).toList := by
        cases hcode : e.object? language <;> simp [hcode]
      rw [Option.isNone_none, if_pos rfl, List.filterMap_append, hobject]
      exact Option.map_map _ _ _

theorem loadsFrom_concat (m : Macros) (edits : List MacroEdit) (e : MacroEdit) :
    loadsFrom m (edits ++ [e]) = loadsFrom m edits ++ ((edits.foldl Macros.edit m).loaded? e).toList := by
  induction edits generalizing m with
  | nil => exact List.append_nil _
  | cons d edits ih => rw [List.cons_append, loadsFrom, ih, loadsFrom, List.append_assoc, List.foldl_cons]

theorem find?_objects_made (edits : List MacroEdit) (name : String) :
    (Macros.made edits).objects.find? name = lastLanguage edits name := by
  induction edits using List.reverseRecOn with
  | nil => rfl
  | append_singleton edits e ih =>
    rw [made_concat, find?_objects_edit, ih]
    unfold lastLanguage
    rw [loadsFrom_concat]
    show _ = ((loadsFrom {} edits ++ ((Macros.made edits).loaded? e).toList).reverse.find? _).map _
    cases (Macros.made edits).loaded? e with
    | none => simp
    | some found =>
      by_cases hname : name = found.1
      · simp [Option.filter, hname]
      · simp [Option.filter, hname]

/-! ## Calls -/

/-- A call runs the subroutine of its name, or else what the handler of the object's language makes of it. -/
theorem resolve?_eq (m : Macros) (name : String) :
    m.resolve? name = (m.subroutines.find? name).or ((m.objects.find? name).bind fun language =>
      (m.workshops.find? language).map fun w => w.handler.run w.received) := by
  unfold Macros.resolve?
  cases m.subroutines.find? name with
  | some code => rfl
  | none =>
    cases m.objects.find? name with
    | none => rfl
    | some language =>
      simp only [Option.none_or, Option.bind_some]
      cases hw : m.workshops.find? language <;> simp [hw]

theorem resolve?_made (edits : List MacroEdit) (name : String) :
    (Macros.made edits).resolve? name = (currentSubroutine edits name).or (objectCode edits name) := by
  rw [resolve?_eq, find?_subroutines_made, find?_objects_made]
  simp only [find?_workshops_made]
  rfl

/-- If every object has a handler, then all that is defined can be called, and nothing else. -/
theorem Handled.isDefined_iff (h : Handled m) : m.isDefined name = true ↔ ∃ code, m.resolve? name = some code := by
  rw [resolve?_eq]
  unfold Macros.isDefined Dict.contains
  cases m.subroutines.find? name with
  | some code => simp
  | none =>
    cases hobject : m.objects.find? name with
    | none => simp
    | some language =>
      obtain ⟨w, hw⟩ := Option.isSome_iff_exists.mp (h name language hobject)
      simp [hw]

/-- A call of a name ends for want of code, or it runs some. -/
theorem diagnostics_callMacro {s : Scene} {line : String} {args : List String} (hline : Text.wordsOf line = name :: args)
    (t : Turn) :
    ((Turn.callMacro s line).run t).2.diagnostics = t.diagnostics ++ [.undefinedMacro name] ↔
      s.macros.resolve? name = none := by
  unfold Turn.callMacro
  rw [hline]
  cases hname : s.macros.resolve? name with
  | none =>
    simp only [hname]
    exact iff_of_true rfl trivial
  | some code =>
    simp only [hname, StateT.run_bind, StateT.run_get, pure_bind]
    generalize code { name, args, expired := s.settings.macroTimeout == some 0 } t.user = called
    obtain ⟨result, user⟩ := called
    cases result with
    | ok text =>
      show t.diagnostics = t.diagnostics ++ [.undefinedMacro name] ↔ _
      simp
    | error err =>
      show t.diagnostics ++ [.macroFailed name err] = t.diagnostics ++ [.undefinedMacro name] ↔ _
      simp

/-- What some edits say of a name comes true when it is called. -/
structure Predicts (edits : List MacroEdit) (name : String) : Prop where
  /-- Every language of an object has a handler. -/
  handled : ∀ object language, (Macros.made edits).objects.find? object = some language →
    (Macros.made edits).hasHandler language = true
  reaches : (Macros.made edits).isDefined name = true ↔ ∃ code, (Macros.made edits).resolve? name = some code
  defined : (Macros.made edits).isDefined name = true ↔
    (∃ code, currentSubroutine edits name = some code) ∨ ∃ language, lastLanguage edits name = some language
  /-- In a turn a call of the name ends as undefined exactly if it is not defined. -/
  undefined : ∀ (s : Scene) (line : String) (args : List String) (t : Turn), s.macros = Macros.made edits →
    Text.wordsOf line = name :: args →
    (((Turn.callMacro s line).run t).2.diagnostics = t.diagnostics ++ [.undefinedMacro name] ↔
      (Macros.made edits).isDefined name = false)
  /-- The subroutine that is set is called. -/
  native : ∀ code, currentSubroutine edits name = some code → (Macros.made edits).resolve? name = some code
  /-- Otherwise it is the current handler of the language in which the name was loaded last. -/
  object : currentSubroutine edits name = none → (Macros.made edits).resolve? name = objectCode edits name
  refused : ∀ object language code err, ((Macros.made edits).loadObject object language code).2 = .error err →
    SameTables (Macros.made edits) (Macros.made (edits ++ [.loadObject object language code]))
  uncovered : (Macros.made (edits ++ [.removeSubroutine name])).resolve? name = objectCode edits name

/-- Whether a name is defined says whether a call of it runs something, after any edits, and the edits say what. -/
theorem isDefined_predicts (edits : List MacroEdit) (name : String) : Predicts edits name := by
  have hhandled := handled_made edits
  have hresolve := resolve?_made edits name
  refine ⟨hhandled, hhandled.isDefined_iff, ?_, ?_, ?_, ?_, ?_, ?_⟩
  · rw [Macros.isDefined, Bool.or_eq_true, Dict.contains, Dict.contains, find?_subroutines_made, find?_objects_made,
      Option.isSome_iff_exists, Option.isSome_iff_exists]
  · intro s line args t hmacros hline
    rw [diagnostics_callMacro hline, hmacros, ← Bool.not_eq_true, hhandled.isDefined_iff, Option.eq_none_iff_forall_ne_some]
    exact not_exists.symm
  · intro code hcode
    rw [hresolve, hcode, Option.some_or]
  · intro hnone
    rw [hresolve, hnone, Option.none_or]
  · intro object language code err herr
    rw [made_concat]
    exact sameTables_of_refused herr
  · rw [made_concat]
    -- Taking a subroutine away leaves the objects and the handlers.
    show ((Macros.made edits).removeSubroutine name).resolve? name = _
    rw [resolve?_eq, Macros.removeSubroutine, Dict.find?_erase_self, Option.none_or, find?_objects_made]
    simp only [find?_workshops_made]
    rfl

/-- An object is taken, its handler is replaced by one that does not take it again, and a subroutine comes over it and
goes. -/
theorem isDefined_predicts_uncovered :
    let mild : Handler := { accept := fun _ _ => .ok (), run := fun _ _ u => (.ok "mild", u) }
    let shout : Subroutine := fun call u => (.ok (call.name ++ "!"), u)
    let edits : List MacroEdit := [.setHandler "echo" mild, .loadObject "greet" "echo" "hi", .setHandler "echo" choosy,
      .loadObject "greet" "echo" "REJECT", .setSubroutine "greet" shout]
    let answer := fun m : Macros => (m.resolve? "greet").map fun code => (code ⟨"greet", [], false⟩ (User.new "u")).1
    (loadsFrom {} edits = [("greet", "echo")] ∧ answer (Macros.made edits) = some (.ok "greet!") ∧
      answer (Macros.made (edits ++ [.removeSubroutine "greet"])) = some (.ok "REJECT")) ∧
      Predicts edits "greet" ∧ Predicts (edits ++ [.removeSubroutine "greet"]) "greet" := by
  intro mild shout edits answer
  refine ⟨⟨by decide +kernel, by decide +kernel, by decide +kernel⟩, ?_, ?_⟩
  · exact isDefined_predicts edits "greet"
  · exact isDefined_predicts (edits ++ [.removeSubroutine "greet"]) "greet"

end Repartee
