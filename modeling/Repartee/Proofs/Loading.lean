/-
  Repartee.Proofs.Loading — what the four ways of loading have in common.

  Each reads the texts of some new sources, and makes a list of sources out of them and of those
  that were there. That list is compiled, the objects of the new sources are handed over, and
  only then is anything published.

  Proved:
  - Every load is `adopt` after `fresh` (`load_eq`).
  - Only a rejected object is reported as one (`isRejection_of_fresh`, `isRejection_of_build`).
  - A load fails before any object is handed over, fails at an object, or succeeds (`load_cases`).
  - One that succeeds leaves the sources it should (`leaves_of_fresh`).
-/

import Mathlib.Data.List.Forall2
import Repartee.Bot.Load
import Repartee.Proofs.Directory
import Repartee.Proofs.Results

namespace Repartee

/-- A way to load rules. -/
inductive Load where
  | text (name text : String)
  | file (path : String)
  | directory (path : String)
  /-- Read the files of all sources again. -/
  | again
  deriving DecidableEq, Repr

namespace Bot

def load (b : Bot) (files : Files) : Load → Bot × Except LoadError Unit
  | .text name text => b.loadText name text
  | .file path => b.loadFile files path
  | .directory path =>
    let (b, count) := b.loadDirectory files path
    (b, count.map fun _ => ())
  | .again => b.reload files

/-! ## The steps of a load -/

/-- The sources whose texts a load reads. -/
def fresh (b : Bot) (files : Files) : Load → Except LoadError (List Source)
  | .text name text => (b.readScript name text).map fun script => [{ place := .inline name, script }]
  | .file path => (b.readFile files path).map ([·])
  | .directory path =>
    match files.filesIn? path with
    | none => .error (.unreadable path)
    | some names => ((names.filter (isWanted b.settings.extensions)).map (Files.member path)).mapM (b.readFile files)
  | .again => b.sources.mapM (b.reread files)

/-- All sources after a load that has read these. -/
def combine (b : Bot) (fresh : List Source) : Load → List Source
  | .again => fresh
  | _ => b.sources ++ fresh

theorem load_eq (b : Bot) (files : Files) (l : Load) :
    b.load files l = match b.fresh files l with
      | .error e => (b, .error e)
      | .ok fresh => b.adopt (b.combine fresh l) fresh := by
  cases l with
  | text name text =>
    cases h : b.readScript name text with
    | error e => simp [load, loadText, fresh, h, Except.map]
    | ok script => simp [load, loadText, fresh, h, Except.map, addSources, combine]
  | file path =>
    cases h : b.readFile files path with
    | error e => simp [load, loadFile, fresh, h, Except.map]
    | ok source => simp [load, loadFile, fresh, h, Except.map, addSources, combine]
  | directory path =>
    cases hnames : files.filesIn? path with
    | none => simp [load, loadDirectory, fresh, hnames, Except.map]
    | some names =>
      let paths := (names.filter (isWanted b.settings.extensions)).map (Files.member path)
      cases hread : paths.mapM (b.readFile files) with
      | error e => simp only [load, loadDirectory, fresh, hnames, hread, Except.map, paths]
      | ok sources =>
        rcases hadopt : b.adopt (b.sources ++ sources) sources with ⟨b', e | _⟩
        · simp only [load, loadDirectory, fresh, hnames, hread, hadopt, Except.map, addSources, combine, paths]
        · simp only [load, loadDirectory, fresh, hnames, hread, hadopt, Except.map, addSources, combine, paths]
  | again =>
    cases h : b.sources.mapM (b.reread files) with
    | error e => simp [load, reload, fresh, h]
    | ok sources => simp [load, reload, fresh, h, combine]

end Bot

/-! ## What is reported as a rejected object -/

/-- The error names an object that its handler did not take. -/
def LoadError.isRejection : LoadError → Bool
  | .object .. => true
  | _ => false

theorem isRejection_of_atLine {α : Type} {origin : String} {line : Line} {x : Except RuleFault α} {e : LoadError}
    (h : Rulebook.atLine origin line x = .error e) : e.isRejection = false := by
  obtain ⟨fault, -, rfl⟩ := mapError_eq_error.mp h
  rfl

theorem isRejection_of_optional {α β : Type} {f : α → Except LoadError β} {a? : Option α} {e : LoadError}
    (hf : ∀ a, f a = .error e → e.isRejection = false) (h : a?.mapM f = .error e) : e.isRejection = false := by
  cases a? with
  | none => cases h
  | some a => exact hf a (map_eq_error.mp h)

theorem isRejection_of_compileTrigger {scope : Pattern.Scope} {origin : String} {t : Script.Trigger} {e : LoadError}
    (h : Rulebook.compileTrigger scope origin t = .error e) : e.isRejection = false := by
  simp only [Rulebook.compileTrigger, bind_eq_error] at h
  rcases h with h | ⟨_, -, h | ⟨_, -, h | ⟨_, -, h | ⟨_, -, h | ⟨_, -, h⟩⟩⟩⟩⟩
  · exact isRejection_of_atLine h
  · exact isRejection_of_optional (fun _ => isRejection_of_atLine) h
  · obtain ⟨_, -, h⟩ := exists_of_mapM_eq_error h
    exact isRejection_of_atLine h
  · obtain ⟨_, -, h⟩ := exists_of_mapM_eq_error h
    exact isRejection_of_atLine h
  · exact isRejection_of_optional (fun _ => isRejection_of_atLine) h
  · cases h

/-- Rules that do not compile are not reported as a rejected object. -/
theorem isRejection_of_build {punctuation : Regex} {settings : Settings} {scripts : List Script} {e : LoadError}
    (h : Rulebook.build punctuation settings scripts = .error e) : e.isRejection = false := by
  rcases bind_eq_error.mp h with h | ⟨_, -, h⟩
  · obtain ⟨_, script, -, h⟩ := exists_of_foldlM_eq_error h
    obtain ⟨_, topic, -, h⟩ := exists_of_foldlM_eq_error h
    obtain ⟨_, trigger, -, h⟩ := exists_of_foldlM_eq_error h
    rcases bind_eq_error.mp h with h | ⟨_, -, h⟩
    · exact isRejection_of_compileTrigger h
    · cases h
  · cases h

namespace Bot

variable {b : Bot} {files : Files} {l : Load} {e : LoadError}

theorem isRejection_of_readScript {origin text : String} (h : b.readScript origin text = .error e) :
    e.isRejection = false := by
  obtain ⟨fault, -, rfl⟩ := mapError_eq_error.mp h
  rfl

theorem isRejection_of_readFile {path : String} (h : b.readFile files path = .error e) : e.isRejection = false := by
  rw [readFile] at h
  cases htext : files.readText? path with
  | none =>
    simp only [htext, Except.error.injEq] at h
    exact h ▸ rfl
  | some text =>
    simp only [htext, bind_eq_error] at h
    rcases h with h | ⟨_, -, h⟩
    · exact isRejection_of_readScript h
    · cases h

/-- Texts that cannot be read are not reported as a rejected object. -/
theorem isRejection_of_fresh (h : b.fresh files l = .error e) : e.isRejection = false := by
  cases l with
  | text name text => exact isRejection_of_readScript (map_eq_error.mp h)
  | file path => exact isRejection_of_readFile (map_eq_error.mp h)
  | directory path =>
    rw [fresh] at h
    cases hnames : files.filesIn? path with
    | none =>
      simp only [hnames, Except.error.injEq] at h
      exact h ▸ rfl
    | some names =>
      simp only [hnames] at h
      obtain ⟨_, -, h⟩ := exists_of_mapM_eq_error h
      exact isRejection_of_readFile h
  | again =>
    obtain ⟨was, -, h⟩ := exists_of_mapM_eq_error h
    rw [reread] at h
    cases hplace : was.place with
    | file path =>
      simp only [hplace] at h
      exact isRejection_of_readFile h
    | inline name => simp [hplace] at h

/-! ## How a load can end -/

/-- Every load fails with nothing handed over, fails at an object, or succeeds. -/
theorem load_cases (b : Bot) (files : Files) (l : Load) :
    (∃ e, e.isRejection = false ∧ b.load files l = (b, .error e)) ∨
    (∃ fresh macros e, b.fresh files l = .ok fresh ∧
      handOver b.macros (fresh.flatMap (·.script.objects)) = (macros, .error e) ∧
      b.load files l = ({ b with macros }, .error e)) ∨
    (∃ fresh rules macros, b.fresh files l = .ok fresh ∧
      Rulebook.build b.punctuation b.settings ((b.combine fresh l).map (·.script)) = .ok rules ∧
      handOver b.macros (fresh.flatMap (·.script.objects)) = (macros, .ok ()) ∧
      b.load files l = ({ b with macros, sources := b.combine fresh l, rules }, .ok ())) := by
  rw [load_eq]
  cases hfresh : b.fresh files l with
  | error e => exact .inl ⟨e, isRejection_of_fresh hfresh, rfl⟩
  | ok fresh =>
    cases hbuild : Rulebook.build b.punctuation b.settings ((b.combine fresh l).map (·.script)) with
    | error e => exact .inl ⟨e, isRejection_of_build hbuild, by simp [adopt, hbuild]⟩
    | ok rules =>
      rcases hhand : handOver b.macros (fresh.flatMap (·.script.objects)) with ⟨macros, e | _⟩
      · exact .inr (.inl ⟨fresh, macros, e, rfl, hhand, by simp [adopt, hbuild, hhand]⟩)
      · exact .inr (.inr ⟨fresh, rules, macros, rfl, hbuild, hhand, by simp [adopt, hbuild, hhand]⟩)

/-! ## The sources a load leaves -/

/-- The source is what a file says now, read as a script. -/
def IsRead (settings : Settings) (files : Files) (path : String) (s : Source) : Prop :=
  s.place = .file path ∧
    ∃ text, files.readText? path = some text ∧ Script.read settings.strict path text = .ok s.script

/-- The sources that a load is to leave, by those before and by what the files say now. -/
inductive Leaves (settings : Settings) (files : Files) (old : List Source) : Load → List Source → Prop
  | text {name text : String} {script : Script} : Script.read settings.strict name text = .ok script →
      Leaves settings files old (.text name text) (old ++ [{ place := .inline name, script }])
  | file {path : String} {s : Source} : IsRead settings files path s →
      Leaves settings files old (.file path) (old ++ [s])
  /-- The wanted files of the directory, each once, by ascending names. -/
  | directory {path : String} {names : List String} {fresh : List Source} : names.Pairwise (· < ·) →
      (∀ name, name ∈ names ↔ files.HasFile path name ∧ isWanted settings.extensions name = true) →
      List.Forall₂ (fun name s => IsRead settings files (Files.member path name) s) names fresh →
      Leaves settings files old (.directory path) (old ++ fresh)
  /-- The same places in the same order, the files as they are now. -/
  | again {fresh : List Source} :
      List.Forall₂ (fun was s => match was.place with
        | .file path => IsRead settings files path s
        | .inline _ => s = was) old fresh →
      Leaves settings files old .again fresh

variable {sources : List Source}

theorem isRead_of_readFile {path : String} {s : Source} (h : b.readFile files path = .ok s) :
    IsRead b.settings files path s := by
  rw [readFile] at h
  cases htext : files.readText? path with
  | none => simp [htext] at h
  | some text =>
    simp only [htext, bind_eq_ok] at h
    obtain ⟨script, hscript, hs⟩ := h
    cases hs
    exact ⟨rfl, text, htext, mapError_eq_ok.mp hscript⟩

theorem forall₂_of_mapM_eq_ok {α β ε : Type} {f : α → Except ε β} {as : List α} {bs : List β}
    (h : as.mapM f = .ok bs) : List.Forall₂ (fun a b => f a = .ok b) as bs := by
  have heq : List.Forall₂ (· = ·) (as.map f) (bs.map .ok) := by rw [mapM_eq_ok.mp h, List.forall₂_eq_eq_eq]
  exact List.forall₂_map_right_iff.mp (List.forall₂_map_left_iff.mp heq)

theorem leaves_of_fresh (h : b.fresh files l = .ok sources) :
    Leaves b.settings files b.sources l (b.combine sources l) := by
  cases l with
  | text name text =>
    obtain ⟨script, hscript, rfl⟩ := map_eq_ok.mp h
    exact .text (mapError_eq_ok.mp hscript)
  | file path =>
    obtain ⟨s, hs, rfl⟩ := map_eq_ok.mp h
    exact .file (isRead_of_readFile hs)
  | directory path =>
    rw [fresh] at h
    cases hnames : files.filesIn? path with
    | none => simp [hnames] at h
    | some names =>
      simp only [hnames] at h
      have hsorted := (Files.sorted_filesIn hnames).filter (isWanted b.settings.extensions)
      refine .directory hsorted (fun name => ?_) ?_
      · rw [List.mem_filter, Files.mem_filesIn_iff hnames]
      · exact (List.forall₂_map_left_iff.mp (forall₂_of_mapM_eq_ok h)).imp fun _ _ => isRead_of_readFile
  | again =>
    refine .again ((forall₂_of_mapM_eq_ok h).imp fun was s hs => ?_)
    rw [reread] at hs
    cases hplace : was.place with
    | file path =>
      simp only [hplace] at hs
      exact isRead_of_readFile hs
    | inline name =>
      simp only [hplace] at hs
      exact (Except.ok.inj hs).symm

end Bot

end Repartee
