/-
  Repartee.Proofs.Leftovers — which objects can be called after a load that succeeds.

  A reload compiles the rules anew and hands the objects of all sources over once more, into the
  same macros. A name that the sources declare is there afterwards, as it is in a new bot that
  loads them. A name that they no longer declare is there as well, if it was before.

  Proved:
  - A batch that is taken adds its names and takes none away (`handOver_eq_ok`,
    `isDefined_handOver`).
  - After a reload a name can be called if it could before, or if the sources declare it, which is
    all there is in a bot without objects that loads the same sources (`callable_after_reload`).
  - So an object that is taken out of its file can still be called
    (`an_object_taken_out_of_its_file_stays_callable`).
-/

import Repartee.Proofs.Handover

namespace Repartee

/-! ## Batches that are taken -/

/-- The objects that have a handler, which are those that are handed over. -/
def Macros.handled (m : Macros) (os : List Script.Object) : List Script.Object :=
  os.filter fun o => m.hasHandler o.language

section Batches

variable {m m' : Macros} {os os' : List Script.Object} {o : Script.Object} {name : String}

theorem handled_cons_of_pos (h : m.hasHandler o.language = true) : m.handled (o :: os) = o :: m.handled os := by
  unfold Macros.handled
  rw [List.filter_cons, if_pos h]

theorem handled_cons_of_neg (h : ¬ m.hasHandler o.language = true) : m.handled (o :: os) = m.handled os := by
  unfold Macros.handled
  rw [List.filter_cons, if_neg h]

theorem Handed.handled (h : Handed m m' os') : m'.handled os = m.handled os := by
  unfold Macros.handled
  simp only [h.hasHandler]

theorem contains_named {d : Dict String} :
    (os.foldl (fun d o => d.put o.name o.language) d).contains name = true ↔
      d.contains name = true ∨ ∃ o ∈ os, o.name = name := by
  induction os generalizing d with
  | nil => simp
  | cons o os ih =>
    rw [List.foldl_cons, ih, Dict.contains, Dict.find?_put, Dict.contains]
    by_cases hname : name = o.name
    · simp [hname]
    · have hne : ¬ o.name = name := fun h => hname h.symm
      simp [hname, hne]

/-- A batch that is taken was handed over to the last object that has a handler, and all of these are named. -/
theorem handOver_eq_ok (h : Bot.handOver m os = (m', .ok ())) :
    Handed m m' (m.handled os) ∧
      m'.objects = (m.handled os).foldl (fun d o => d.put o.name o.language) m.objects := by
  induction os generalizing m with
  | nil =>
    simp only [Bot.handOver, Prod.mk.injEq, and_true] at h
    rw [← h]
    refine ⟨⟨rfl, fun language => ?_⟩, rfl⟩
    cases m.workshops.find? language <;> simp [codes, Macros.handled]
  | cons o os ih =>
    rw [Bot.handOver] at h
    by_cases ho : m.hasHandler o.language = true
    · obtain ⟨m₁, hhanded, ⟨hload, hobjects⟩ | ⟨err, hload, -, -⟩⟩ := loadObject_cases ho
      · simp only [if_pos ho, hload] at h
        obtain ⟨hrest, hnames⟩ := ih h
        rw [hhanded.handled] at hrest hnames
        rw [handled_cons_of_pos ho]
        exact ⟨hhanded.trans hrest, by rw [hnames, hobjects, List.foldl_cons]⟩
      · simp only [if_pos ho, hload, Prod.mk.injEq, reduceCtorEq, and_false] at h
    · rw [if_neg ho] at h
      rw [handled_cons_of_neg ho]
      exact ih h

theorem isDefined_handOver (h : Bot.handOver m os = (m', .ok ())) (hname : m.subroutines.contains name = false) :
    m'.isDefined name = true ↔
      m.isDefined name = true ∨ ∃ o ∈ os, o.name = name ∧ m.hasHandler o.language = true := by
  obtain ⟨hhanded, hnames⟩ := handOver_eq_ok h
  unfold Macros.isDefined
  rw [hhanded.subroutines, hname, Bool.false_or, Bool.false_or, hnames, contains_named]
  refine or_congr_right (exists_congr fun o => ?_)
  rw [Macros.handled, List.mem_filter]
  exact and_right_comm.trans and_assoc

end Batches

/-! ## Reloads -/

namespace Bot

variable {b : Bot} {files : Files} {name : String}

/-- Some source declares an object of this name, in a language that has a handler. -/
def Declares (b : Bot) (name : String) : Prop :=
  ∃ s ∈ b.sources, ∃ o ∈ s.script.objects, o.name = name ∧ b.macros.hasHandler o.language = true

theorem adopt_eq_ok {b' : Bot} {sources fresh : List Source} (h : b.adopt sources fresh = (b', .ok ())) :
    b'.sources = sources ∧ handOver b.macros (fresh.flatMap (·.script.objects)) = (b'.macros, .ok ()) := by
  unfold adopt at h
  cases hbuild : Rulebook.build b.punctuation b.settings (sources.map (·.script)) with
  | error e => simp [hbuild] at h
  | ok rules =>
    rcases hhand : handOver b.macros (fresh.flatMap (·.script.objects)) with ⟨macros, e | _⟩
    · simp [hbuild, hhand] at h
    · simp only [hbuild, hhand, Prod.mk.injEq, and_true] at h
      rw [← h]
      exact ⟨rfl, hhand⟩

section Adopt

variable {sources : List Source}

theorem declares_adopt (h : (b.adopt sources sources).2 = .ok ()) :
    (b.adopt sources sources).1.Declares name ↔
      ∃ s ∈ sources, ∃ o ∈ s.script.objects, o.name = name ∧ b.macros.hasHandler o.language = true := by
  obtain ⟨hsources, hhand⟩ := adopt_eq_ok (Prod.ext rfl h)
  have hhanded := (handOver_eq_ok hhand).1
  unfold Declares
  simp only [hsources, hhanded.hasHandler]

theorem isDefined_adopt (h : (b.adopt sources sources).2 = .ok ())
    (hname : b.macros.subroutines.contains name = false) :
    (b.adopt sources sources).1.macros.isDefined name = true ↔
      b.macros.isDefined name = true ∨ (b.adopt sources sources).1.Declares name := by
  obtain ⟨-, hhand⟩ := adopt_eq_ok (Prod.ext rfl h)
  rw [isDefined_handOver hhand hname, declares_adopt h]
  refine or_congr_right ?_
  constructor
  · intro hex
    obtain ⟨o, ho, hdeclared⟩ := hex
    obtain ⟨s, hs, ho⟩ := List.mem_flatMap.mp ho
    exact ⟨s, hs, o, ho, hdeclared⟩
  · intro hex
    obtain ⟨s, hs, o, ho, hdeclared⟩ := hex
    exact ⟨o, List.mem_flatMap.mpr ⟨s, hs, ho⟩, hdeclared⟩

end Adopt

/-- A load registers no handler and removes none, however it ends. -/
theorem hasHandler_load (b : Bot) (files : Files) (l : Load) (language : String) :
    (b.load files l).1.macros.hasHandler language = b.macros.hasHandler language := by
  rcases load_cases b files l with ⟨e, -, hload⟩ | ⟨fresh, macros, e, -, hhand, hload⟩ |
    ⟨fresh, rules, macros, -, -, hhand, hload⟩
  · rw [hload]
  · obtain ⟨accepted, rejected, rest, err, -, -, -, hhanded, -⟩ := handOver_eq_error hhand
    rw [hload]
    exact hhanded.hasHandler language
  · rw [hload]
    exact (handOver_eq_ok hhand).1.hasHandler language

/-- After a reload a name that is no subroutine can be called if it could before, or if the sources declare
it. In a bot that has the same handlers and loads the same sources, without objects before, it can be called
if they declare it. -/
theorem callable_after_reload (h : (b.reload files).2 = .ok ()) (hname : b.macros.subroutines.contains name = false) :
    let after := (b.reload files).1
    (after.macros.isDefined name = true ↔ b.macros.isDefined name = true ∨ after.Declares name) ∧
      ∀ fresh : Bot, fresh.sources = [] → fresh.macros.objects = ∅ →
        fresh.macros.subroutines.contains name = false →
        (∀ language, fresh.macros.hasHandler language = b.macros.hasHandler language) →
        (fresh.addSources after.sources).2 = .ok () →
        ((fresh.addSources after.sources).1.macros.isDefined name = true ↔ after.Declares name) := by
  obtain ⟨sources, hreload⟩ : ∃ sources, b.reload files = b.adopt sources sources := by
    cases hread : b.sources.mapM (b.reread files) with
    | error e => simp [reload, hread] at h
    | ok sources => exact ⟨sources, by simp only [reload, hread]⟩
  rw [hreload] at h ⊢
  refine ⟨isDefined_adopt h hname, ?_⟩
  intro fresh hempty hobjects hfree hhandlers hadded
  have hsources : (b.adopt sources sources).1.sources = sources := (adopt_eq_ok (Prod.ext rfl h)).1
  rw [addSources, hempty, List.nil_append, hsources] at hadded ⊢
  have hnone : fresh.macros.isDefined name = false := by
    unfold Macros.isDefined
    rw [hfree, hobjects]
    rfl
  rw [isDefined_adopt hadded hfree, hnone, declares_adopt hadded, declares_adopt h]
  simp only [hhandlers, Bool.false_eq_true, false_or]

/-- One object is taken out of its file, another one is put in. -/
theorem callable_after_reload_other_object :
    let was := ({} : Files).write "a.rive" (some "> object greet echo\nhi\n< object\n+ greet\n- <call>greet</call>")
    let now := ({} : Files).write "a.rive" (some "> object part echo\nbye\n< object\n+ part\n- <call>part</call>")
    ∃ b₀, Bot.new {} = .ok b₀ ∧
      let fresh := b₀.setHandler "echo" choosy
      let b := (fresh.load was (.file "a.rive")).1
      let after := (b.reload now).1
      ((b.reload now).2 = .ok () ∧ b.macros.subroutines.contains "part" = false) ∧
        (after.macros.isDefined "part" = true ↔ b.macros.isDefined "part" = true ∨ after.Declares "part") ∧
        ((fresh.addSources after.sources).1.macros.isDefined "part" = true ↔ after.Declares "part") := by
  intro was now
  obtain ⟨b₀, hnew, ⟨hreload, hname⟩, hempty, hobjects, hfree, hadded⟩ : ∃ b₀, Bot.new {} = .ok b₀ ∧
      let fresh := b₀.setHandler "echo" choosy
      let b := (fresh.load was (.file "a.rive")).1
      ((b.reload now).2 = .ok () ∧ b.macros.subroutines.contains "part" = false) ∧
        fresh.sources = [] ∧ fresh.macros.objects = ∅ ∧ fresh.macros.subroutines.contains "part" = false ∧
        (fresh.addSources (b.reload now).1.sources).2 = .ok () :=
    exists_ok_of_any (by decide +kernel)
  obtain ⟨hcallable, hfresh⟩ := callable_after_reload hreload hname
  refine ⟨b₀, hnew, ⟨hreload, hname⟩, hcallable, hfresh _ hempty hobjects hfree (fun language => ?_) hadded⟩
  exact (hasHandler_load (b₀.setHandler "echo" choosy) was (.file "a.rive") language).symm

/-- The object is gone from its file, and a new bot that loads the file knows nothing of it, but the bot that
has reloaded the file goes on answering with it. -/
theorem an_object_taken_out_of_its_file_stays_callable :
    let was := ({} : Files).write "a.rive" (some "> object greet echo\nhi\n< object\n+ greet\n- <call>greet</call>")
    let now := ({} : Files).write "a.rive" (some "+ greet\n- <call>greet</call>")
    ∃ b₀, Bot.new {} = .ok b₀ ∧
      let before := ((b₀.setHandler "echo" choosy).load was (.file "a.rive")).1
      let (after, outcome) := before.reload now
      let fresh := ((b₀.setHandler "echo" choosy).load now (.file "a.rive")).1
      outcome = .ok () ∧ after.sources.flatMap (·.script.objects) = [] ∧ fresh.sources = after.sources ∧
        after.macros.subroutines.contains "greet" = false ∧
        after.macros.isDefined "greet" = true ∧ (after.reply "u" "greet").1.reply = "hi" ∧
        fresh.macros.isDefined "greet" = false ∧ (fresh.reply "u" "greet").1.reply = "" :=
  exists_ok_of_any (by decide +kernel)

end Bot

end Repartee
