/-
  Repartee.Proofs.Strictness — what a strict reader refuses.

  A strict reader refuses texts that are only unusual, and a lenient one passes over what is unusual in
  them. Up to the first complaint both do the same, and a complaint is about the line that is being read.
  Apart from reading texts, nothing asks whether a bot is strict.

  Proved:
  - A reader and a lenient one are in step, statement by statement, until the first one complains
    (`inStep_carry`), and over a whole text (`inStep_foldlM`).
  - A fault is on the line that its statement begins on (`line_of_carry_eq_error`).
  - What a strict reader accepts a lenient one reads alike; what a lenient one refuses a strict one refuses
    too, on the same line or an earlier one; and what a strict bot loads, a lenient one loads with the same
    rules (`strict_only_refuses`).
-/

import Repartee.Proofs.Loading
import Repartee.Proofs.Statements.Lines

namespace Repartee

namespace Script

namespace Reader

variable {r r' : Reader} {line : Nat} {o : Order} {c : Command} {s : Statement} {e : SyntaxError}

/-- The reader, passing over what is odd. -/
def lenient (r : Reader) : Reader := { r with strict := false }

/-- Both results are the same, or the first is a complaint about this line and the second a success. -/
def InStep (line : Nat) (x y : Except SyntaxError Reader) : Prop :=
  x.map lenient = y ∨ (∃ fault, x = .error ⟨line, fault⟩) ∧ ∃ r, y = .ok r

/-! ## One statement -/

theorem inStep_complain (r : Reader) (line : Nat) (fault : Fault) :
    InStep line (r.complain line fault) (r.lenient.complain line fault) := by
  have hlenient : r.lenient.complain line fault = .ok r.lenient := complain_eq_ok.mpr ⟨rfl, rfl⟩
  rw [hlenient, complain]
  by_cases hstrict : r.strict = true
  · rw [if_pos hstrict]
    exact .inr ⟨⟨fault, rfl⟩, _, rfl⟩
  · rw [if_neg hstrict]
    exact .inl rfl

theorem inStep_goOn (r : Reader) (index line : Nat) (found : Topic × Option String) :
    InStep line (r.goOn index line found) (r.lenient.goOn index line found) := by
  obtain ⟨topic, _ | word⟩ := found
  · exact .inl rfl
  · exact inStep_complain (r.editTopic index fun _ => topic) line (.strayHeaderWord word)

theorem locate_lenient (r : Reader) (name : String) (line : Nat) :
    r.lenient.locate name line = ((r.locate name line).1.lenient, (r.locate name line).2) := by
  have hscript : r.lenient.script = r.script := rfl
  rw [locate, locate, hscript]
  cases r.script.topics.findIdx? (·.name = name) with
  | some index => rfl
  | none => rfl

theorem inStep_openTopic (r : Reader) (name : String) (header : List String) (line : Nat) :
    InStep line (r.openTopic name header line) (r.lenient.openTopic name header line) := by
  rw [openTopic_eq, openTopic_eq, locate_lenient]
  exact inStep_goOn _ _ _ _

theorem inStep_carryOut (r : Reader) (line : Nat) (o : Order) :
    InStep line (r.carryOut line o) (r.lenient.carryOut line o) := by
  cases o with
  | openTopic name header => exact inStep_openTopic r name header line
  | odd fault => exact inStep_complain r line fault
  | attachment mark text =>
    left
    rw [carryOut, carryOut]
    change _ = if r.currentTopic.triggers.isEmpty = true then _ else _
    split <;> rfl
  | _ => exact .inl rfl

theorem inStep_act (r : Reader) (c : Command) : InStep c.line (r.act c) (r.lenient.act c) := by
  rw [act_eq, act_eq]
  change InStep _ _ (if r.passesOver c.mark = true then _ else _)
  by_cases hpass : r.passesOver c.mark = true
  · rw [if_pos hpass, if_pos hpass]
    exact .inl rfl
  · rw [if_neg hpass, if_neg hpass]
    exact inStep_carryOut r c.line (orderOf c)

/-- Carrying a statement out comes to the same, or a strict reader complains about its line. -/
theorem inStep_carry (r : Reader) (s : Statement) : InStep s.line (r.carry s) (r.lenient.carry s) := by
  cases s with
  | block c =>
    rw [carry, carry]
    split
    · exact .inl rfl
    · exact inStep_act r c
  | command c more =>
    have hact := inStep_act r (r.joiner.fold c more)
    rw [(mark_fold r.joiner c more).2] at hact
    exact hact
  | stray line => exact inStep_complain r line .nothingToContinue
  | object o => exact .inl rfl
  | unclosed o => exact .inl rfl

/-! ## The line of a fault -/

theorem line_of_complain_eq_error {fault : Fault} (h : r.complain line fault = .error e) : e.line = line := by
  unfold complain at h
  split at h
  · cases h
    rfl
  · cases h

theorem line_of_goOn_eq_error {index : Nat} {found : Topic × Option String} (h : r.goOn index line found = .error e) :
    e.line = line := by
  obtain ⟨topic, _ | word⟩ := found
  · cases h
  · exact line_of_complain_eq_error h

theorem line_of_carryOut_eq_error (h : r.carryOut line o = .error e) : e.line = line := by
  cases o with
  | openTopic name header =>
    rw [carryOut, openTopic_eq] at h
    have hline := line_of_goOn_eq_error h
    exact hline
  | attachment mark text =>
    rw [carryOut] at h
    split at h
    · cases h
      rfl
    · cases h
  | impossible fault =>
    cases h
    rfl
  | odd fault => exact line_of_complain_eq_error h
  | _ => cases h

theorem line_of_act_eq_error (h : r.act c = .error e) : e.line = c.line := by
  rw [act_eq] at h
  split at h
  · cases h
  · exact line_of_carryOut_eq_error h

/-- A fault is on the line that its statement begins on. -/
theorem line_of_carry_eq_error (h : r.carry s = .error e) : e.line = s.line := by
  cases s with
  | block c =>
    rw [carry] at h
    split at h
    · cases h
    · exact line_of_act_eq_error h
  | command c more => exact (line_of_act_eq_error h).trans (mark_fold r.joiner c more).2
  | stray line => exact line_of_complain_eq_error h
  | object o => cases h
  | unclosed o =>
    cases h
    rfl

/-! ## All statements of a text -/

/-- A reader and a lenient one come to the same over statements in the order of their lines, or the first one complains,
and no later than where the lenient one fails. -/
theorem inStep_foldlM {ss : List Statement} (h : ss.Pairwise (·.line ≤ ·.line)) (r : Reader) :
    (ss.foldlM carry r).map lenient = ss.foldlM carry r.lenient ∨
      ∃ e, ss.foldlM carry r = .error e ∧ ∀ e', ss.foldlM carry r.lenient = .error e' → e.line ≤ e'.line := by
  induction ss generalizing r with
  | nil => exact .inl rfl
  | cons s ss ih =>
    obtain ⟨hs, hss⟩ := List.pairwise_cons.mp h
    rw [List.foldlM_cons, List.foldlM_cons]
    rcases inStep_carry r s with hsame | ⟨⟨fault, hfault⟩, q, hq⟩
    · rw [← hsame]
      cases hcarry : r.carry s with
      | error e => exact .inl rfl
      | ok r' => exact ih hss r'
    · rw [hfault, hq]
      refine .inr ⟨_, rfl, ?_⟩
      intro e' he'
      obtain ⟨q', s', hs', hlater⟩ := exists_of_foldlM_eq_error he'
      rw [line_of_carry_eq_error hlater]
      exact hs s' hs'

end Reader

variable {strict : Bool} {origin text : String}

theorem read_lenient {script : Script} (h : read strict origin text = .ok script) :
    read false origin text = .ok script := by
  rw [read_eq] at h ⊢
  obtain ⟨r, hr, rfl⟩ := map_eq_ok.mp h
  rcases Reader.inStep_foldlM (pairwise_line text) { strict, script := { origin } } with hsame | ⟨e, he, -⟩
  · rw [hr] at hsame
    exact map_eq_ok.mpr ⟨r.lenient, hsame.symm, rfl⟩
  · rw [hr] at he
    cases he

theorem exists_of_lenient_eq_error {e : SyntaxError} (h : read false origin text = .error e) (strict : Bool) :
    ∃ e', read strict origin text = .error e' ∧ e'.line ≤ e.line := by
  rw [read_eq] at h ⊢
  have hlenient := map_eq_error.mp h
  rcases Reader.inStep_foldlM (pairwise_line text) { strict, script := { origin } } with hsame | ⟨e', he', hle⟩
  · have herror := map_eq_error.mp (hsame.trans hlenient)
    exact ⟨e, map_eq_error.mpr herror, Nat.le_refl _⟩
  · exact ⟨e', map_eq_error.mpr he', hle e hlenient⟩

end Script

namespace Bot

variable {b b' : Bot} {files : Files} {l : Load}

/-- The bot, reading its texts leniently. -/
def lenient (b : Bot) : Bot := { b with settings := { b.settings with strict := false } }

/-- The bot after a load, if it succeeds. -/
def loaded (b : Bot) (load : Files × Load) : Except LoadError Bot :=
  (b.load load.1 load.2).2.map fun () => (b.load load.1 load.2).1

/-- The bot after loads that all succeed. -/
def loadAll (b : Bot) (loads : List (Files × Load)) : Except LoadError Bot := loads.foldlM loaded b

theorem readScript_lenient {origin text : String} {script : Script} (h : b.readScript origin text = .ok script) :
    b.lenient.readScript origin text = .ok script :=
  mapError_eq_ok.mpr (Script.read_lenient (mapError_eq_ok.mp h))

theorem readFile_lenient {path : String} {source : Source} (h : b.readFile files path = .ok source) :
    b.lenient.readFile files path = .ok source := by
  rw [readFile] at h ⊢
  cases htext : files.readText? path with
  | none =>
    rw [htext] at h
    cases h
  | some text =>
    simp only [htext] at h ⊢
    obtain ⟨script, hscript, h⟩ := bind_eq_ok.mp h
    exact bind_eq_ok.mpr ⟨script, readScript_lenient hscript, h⟩

theorem mapM_ok_of_imp {α β ε : Type} {f g : α → Except ε β} {as : List α} {bs : List β}
    (hfg : ∀ a b, f a = .ok b → g a = .ok b) (h : as.mapM f = .ok bs) : as.mapM g = .ok bs := by
  have hbs : List.Forall₂ (fun a b => g a = .ok b) as bs := (forall₂_of_mapM_eq_ok h).imp hfg
  rw [mapM_eq_ok, ← List.forall₂_eq_eq_eq, List.forall₂_map_left_iff, List.forall₂_map_right_iff]
  exact hbs

theorem fresh_lenient {sources : List Source} (h : b.fresh files l = .ok sources) :
    b.lenient.fresh files l = .ok sources := by
  cases l with
  | text name text =>
    obtain ⟨script, hscript, rfl⟩ := map_eq_ok.mp h
    exact map_eq_ok.mpr ⟨script, readScript_lenient hscript, rfl⟩
  | file path =>
    obtain ⟨source, hsource, rfl⟩ := map_eq_ok.mp h
    exact map_eq_ok.mpr ⟨source, readFile_lenient hsource, rfl⟩
  | directory path =>
    rw [fresh] at h ⊢
    cases hnames : files.filesIn? path with
    | none =>
      rw [hnames] at h
      cases h
    | some names =>
      simp only [hnames] at h ⊢
      exact mapM_ok_of_imp (fun _ _ => readFile_lenient) h
  | again =>
    refine mapM_ok_of_imp ?_ h
    intro source source' hsource
    rw [reread] at hsource ⊢
    cases hplace : source.place with
    | file path =>
      simp only [hplace] at hsource ⊢
      exact readFile_lenient hsource
    | inline name =>
      simp only [hplace] at hsource ⊢
      exact hsource

/-- Compiling and handing over do not ask whether the bot is strict. -/
theorem adopt_lenient (b : Bot) (sources fresh : List Source) :
    b.lenient.adopt sources fresh = ((b.adopt sources fresh).1.lenient, (b.adopt sources fresh).2) := by
  have hbuild : Rulebook.build b.lenient.punctuation b.lenient.settings (sources.map (·.script)) =
      Rulebook.build b.punctuation b.settings (sources.map (·.script)) := rfl
  rw [adopt, adopt, hbuild]
  cases Rulebook.build b.punctuation b.settings (sources.map (·.script)) with
  | error e => rfl
  | ok rules =>
    have hmacros : b.lenient.macros = b.macros := rfl
    simp only [hmacros]
    cases (handOver b.macros (fresh.flatMap (·.script.objects))).2 with
    | error e => rfl
    | ok u => rfl

theorem load_lenient (h : (b.load files l).2 = .ok ()) : b.lenient.load files l = ((b.load files l).1.lenient, .ok ()) := by
  rw [load_eq] at h ⊢
  rw [load_eq]
  cases hfresh : b.fresh files l with
  | error e =>
    rw [hfresh] at h
    cases h
  | ok fresh =>
    simp only [hfresh] at h
    have hcombine : b.lenient.combine fresh l = b.combine fresh l := by cases l <;> rfl
    simp only [fresh_lenient hfresh, hcombine, adopt_lenient, h]

theorem loaded_lenient {load : Files × Load} (h : b.loaded load = .ok b') : b.lenient.loaded load = .ok b'.lenient := by
  obtain ⟨⟨⟩, hload, rfl⟩ := map_eq_ok.mp h
  rw [loaded, load_lenient hload]
  rfl

theorem loadAll_lenient {loads : List (Files × Load)} (h : b.loadAll loads = .ok b') :
    b.lenient.loadAll loads = .ok b'.lenient := by
  induction loads generalizing b with
  | nil =>
    cases h
    rfl
  | cons load loads ih =>
    rw [loadAll, List.foldlM_cons] at h ⊢
    obtain ⟨next, hnext, h⟩ := bind_eq_ok.mp h
    exact bind_eq_ok.mpr ⟨next.lenient, loaded_lenient hnext, ih h⟩

/-- To be strict only adds refusals. -/
theorem strict_only_refuses (origin text : String) :
    (∀ script, Script.read true origin text = .ok script → Script.read false origin text = .ok script) ∧
    (∀ e, Script.read false origin text = .error e →
      ∃ e', Script.read true origin text = .error e' ∧ e'.line ≤ e.line) ∧
    (∀ settings : Settings, Bot.new { settings with strict := false } = (Bot.new { settings with strict := true }).map lenient) ∧
    ∀ (b b' : Bot) (loads : List (Files × Load)), b.settings.strict = true → b.loadAll loads = .ok b' →
      ∃ c, b.lenient.loadAll loads = .ok c ∧ c.rules = b'.rules ∧ c.sources = b'.sources ∧ c.macros = b'.macros := by
  refine ⟨fun _ => Script.read_lenient, fun _ h => Script.exists_of_lenient_eq_error h true, ?_, ?_⟩
  · intro settings
    rw [new, new]
    change (settings.punctuationRegex >>= _) = (settings.punctuationRegex >>= _).map lenient
    cases settings.punctuationRegex with
    | error e => rfl
    | ok punctuation => rfl
  · intro b b' loads _ hload
    exact ⟨b'.lenient, loadAll_lenient hload, rfl, rfl, rfl⟩

/-- A text that is accepted, a text with an odd line before the one that nobody accepts, and two loads. -/
theorem strict_only_refuses_stray_word :
    let accepted := "+ hello\n- Hi\n^ there!"
    let refused := "> topic t stray\n+ b\n- y\n< topic\n+"
    (∃ script, Script.read true "x" accepted = .ok script ∧ Script.read false "x" accepted = .ok script) ∧
    (Script.read false "x" refused = .error ⟨5, .emptyTrigger⟩ ∧
      ∃ e', Script.read true "x" refused = .error e' ∧ e'.line ≤ 5) ∧
    ∃ b b', Bot.new { strict := true } = .ok b ∧ Bot.new { strict := false } = .ok b.lenient ∧
      let loads := [({}, .text "x" accepted), ({}, .text "y" "> topic t\n+ b\n- y\n< topic")]
      b.loadAll loads = .ok b' ∧
      ∃ c, b.lenient.loadAll loads = .ok c ∧ c.rules = b'.rules ∧ c.sources = b'.sources ∧ c.macros = b'.macros := by
  intro accepted refused
  refine ⟨?_, ?_, ?_⟩
  · obtain ⟨script, hread, -⟩ : ∃ script, Script.read true "x" accepted = .ok script ∧ True :=
      exists_ok_of_any (by decide +kernel)
    exact ⟨script, hread, (strict_only_refuses "x" accepted).1 script hread⟩
  · have hread : Script.read false "x" refused = .error ⟨5, .emptyTrigger⟩ := by decide +kernel
    exact ⟨hread, (strict_only_refuses "x" refused).2.1 _ hread⟩
  · obtain ⟨-, -, hnew, hloads⟩ := strict_only_refuses "x" accepted
    obtain ⟨b, hb, hstrict, hloaded⟩ : ∃ b, Bot.new { strict := true } = .ok b ∧ b.settings.strict = true ∧
        (b.loadAll [({}, .text "x" accepted), ({}, .text "y" "> topic t\n+ b\n- y\n< topic")]).toOption.any
          (fun _ => true) = true :=
      exists_ok_of_any (by decide +kernel)
    obtain ⟨b', hb', -⟩ := exists_ok_of_any (p := fun _ => True) hloaded
    refine ⟨b, b', hb, ?_, hb', hloads b b' _ hstrict hb'⟩
    rw [hnew { strict := true }, hb]
    rfl

end Bot

end Repartee
