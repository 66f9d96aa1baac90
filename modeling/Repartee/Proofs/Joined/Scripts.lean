/-
  Repartee.Proofs.Joined.Scripts — two texts read as one.

  Once a text that leaves nothing open has ended, a reader stands where a new one begins, but for
  the script it has. The command that waits at the end of the first text is carried out at the first
  command of the second, with the same outcome, since no continuation comes between.

  Proved:
  - Two texts that can be read can be read as one, which declares what both do (`read_joined`).
-/

import Repartee.Proofs.Joined.Follows
import Repartee.Proofs.Joined.Lines

namespace Repartee

namespace Script

open Text

namespace Reader

variable {strict : Bool} {a : Script} {r r' j : Reader} {line : Nat}

/-! ## A second text -/

/-- The reader once a text has ended, before it is looked whether an object is open. -/
def atEnd (strict : Bool) (origin text : String) : Except SyntaxError Reader := do
  let start : Reader := { strict, script := { origin } }
  let r ← start.readLines 1 (linesOfPieces (fields (· == '\n') text.toList))
  r.flush

/-- The mark of the first line of a text that is a command or a continuation. -/
def firstCommand? (text : String) : Option Char :=
  firstMark? false (linesOfPieces (fields (· == '\n') text.toList))

/-- In no comment, object or begin block, in the home topic, and with nothing between continued lines. -/
structure Settled (r : Reader) : Prop where
  mode : r.mode = .rules
  inBegin : r.inBegin = false
  joiner : r.joiner = .nothing
  topic : r.currentTopic.name = homeTopic

instance (r : Reader) : Decidable r.Settled :=
  decidable_of_iff (r.mode = .rules ∧ r.inBegin = false ∧ r.joiner = .nothing ∧ r.currentTopic.name = homeTopic)
    ⟨fun ⟨hmode, hinBegin, hjoiner, htopic⟩ => ⟨hmode, hinBegin, hjoiner, htopic⟩,
      fun h => ⟨h.mode, h.inBegin, h.joiner, h.topic⟩⟩

theorem gathers_start {s : Script} (h : Tidy s.topics) (origin : String) : Gathers s { origin } s := by
  refine ⟨rfl, ?_, ?_, ?_, ?_, ?_, ⟨tidy_bareHome, h, fun name => ?_, fun name => ?_⟩⟩
  · exact (List.append_nil _).symm
  · exact (List.append_nil _).symm
  · exact (List.append_nil _).symm
  · exact (List.append_nil _).symm
  · exact (List.append_nil _).symm
  · obtain ⟨t, ht, hhome⟩ := h.home
    constructor
    · exact .inl
    · intro hor
      rcases hor with hmem | hmem
      · exact hmem
      · have hname : name = homeTopic := List.mem_singleton.mp hmem
        rw [hname, ← hhome]
        exact List.mem_map_of_mem (List.mem_of_getElem? ht)
  · have hnone : declaredIn ({ origin } : Script).topics name = {} := declaredIn_bareHome name
    rw [hnone, Declared.append, List.append_nil]
    rfl

/-- A settled reader goes on as a new one begins. -/
theorem follows_start {j : Reader} (h : Tidy j.script.topics) (hsettled : j.Settled) (hpending : j.pending = none)
    (hcurrent : (j.script.topics.map (·.name))[j.current]? = some homeTopic) (origin : String) :
    Follows j.strict j.script { strict := j.strict, script := { origin } } j := by
  refine ⟨rfl, rfl, hsettled.joiner, hsettled.inBegin, ?_, ?_, ⟨homeTopic, rfl, hcurrent⟩, gathers_start h origin⟩
  · rw [hsettled.mode]
    exact .rules
  · rw [hpending]
    exact .none

theorem name_currentTopic {name : String} (h : (r.script.topics.map (·.name))[r.current]? = some name) :
    r.currentTopic.name = name := by
  rw [List.getElem?_map] at h
  obtain ⟨t, ht, rfl⟩ := Option.map_eq_some_iff.mp h
  rw [currentTopic, List.getD_eq_getElem?_getD, ht, Option.getD_some]

theorem follows_settled (h : Follows strict a r j) (hsettled : r.Settled) :
    j.Settled ∧ (j.script.topics.map (·.name))[j.current]? = some homeTopic := by
  obtain ⟨name, hr, hj⟩ := h.current
  have hmode := h.mode
  rw [hsettled.mode] at hmode
  cases (name_currentTopic hr).symm.trans hsettled.topic
  exact ⟨⟨hmode.eq_rules, h.inBegin.trans hsettled.inBegin, h.joiner.trans hsettled.joiner, name_currentTopic hj⟩, hj⟩

theorem read_eq_ok {strict : Bool} {origin text : String} {s : Script} :
    read strict origin text = .ok s ↔
      ∃ r, atEnd strict origin text = .ok r ∧ (∀ o, r.mode ≠ .object o) ∧ r.script = s := by
  rw [read, bind_eq_ok]
  constructor
  · intro ⟨r, hlines, hfinish⟩
    obtain ⟨r', hflush, h⟩ := finish_eq_ok.mp hfinish
    exact ⟨r', bind_eq_ok.mpr ⟨r, hlines, hflush⟩, h⟩
  · intro ⟨r', hend, h⟩
    obtain ⟨r, hlines, hflush⟩ := bind_eq_ok.mp hend
    exact ⟨r, hlines, finish_eq_ok.mpr ⟨r', hflush, h⟩⟩

theorem toList_joined (a b : String) : (a ++ "\n" ++ b).toList = a.toList ++ '\n' :: b.toList := by
  simp [String.toList_append]

/-- Under another name, a text that leaves the reader settled is read on its own and then the next. -/
theorem read_joined_eq {strict : Bool} {nameA a b : String} {r : Reader} (hend : atEnd strict nameA a = .ok r)
    (hsettled : r.Settled) (hfirst : firstCommand? b ≠ some '^') (name : String) :
    ∃ (j : Reader) (line : Nat), Follows strict { origin := name } r j ∧ j.pending = none ∧
      read strict name (a ++ "\n" ++ b) =
        (j.readLines line (linesOfPieces (fields (· == '\n') b.toList)) >>= finish) := by
  obtain ⟨last, hlines, hflush⟩ := bind_eq_ok.mp hend
  have hstart : Follows strict { origin := name } { strict, script := { origin := nameA } }
      { strict, script := { origin := name } } :=
    follows_start (j := { strict, script := { origin := name } }) tidy_bareHome ⟨rfl, rfl, rfl, rfl⟩ rfl rfl nameA
  obtain ⟨last', hlines', hlast⟩ := follows_readLines hstart hlines 1
  obtain ⟨j, hflush', hj⟩ := follows_flush hlast hflush
  have hwaits : last'.Waits := waits_readLines (by simp [Waits]) hlines'
  have hmode : last'.mode = .rules := by
    have hjmode := hj.mode
    rw [hsettled.mode] at hjmode
    rw [← mode_flush hwaits hflush', hjmode.eq_rules]
  have hobject : ∀ o, last'.mode ≠ .object o := by
    intro o ho
    rw [hmode] at ho
    cases ho
  have hended := readLines_ended (fields_ne_nil _ _) hlines' hobject
  refine ⟨j, 1 + (fields (· == '\n') a.toList).length, hj, waits_flush hflush', ?_⟩
  rw [read, toList_joined, fields_append _ _ (by decide), linesOfPieces_append (fields_ne_nil _ _)]
  simp only [readLines_append, hended, List.length_map]
  exact readLines_flush hwaits hflush' hobject (by rwa [hmode])

/-- Two texts that can be read can be read as one, if the first leaves the reader settled and the second
does not begin with a continuation. The script has what the first and then the second have. -/
theorem read_joined {strict : Bool} {nameA nameB a b : String} {sa sb : Script} {r : Reader}
    (ha : read strict nameA a = .ok sa) (hb : read strict nameB b = .ok sb) (hend : atEnd strict nameA a = .ok r)
    (hsettled : r.Settled) (hfirst : firstCommand? b ≠ some '^') (name : String) :
    ∃ first s, read strict name (a ++ "\n" ++ b) = .ok s ∧ Gathers { origin := name } sa first ∧ Gathers first sb s := by
  obtain ⟨j, line, hj, hpending, hread⟩ := read_joined_eq hend hsettled hfirst name
  obtain ⟨r', hend', -, rfl⟩ := read_eq_ok.mp ha
  cases hend.symm.trans hend'
  obtain ⟨hjsettled, hcurrent⟩ := follows_settled hj hsettled
  obtain ⟨last, hlast, hobject, rfl⟩ := read_eq_ok.mp hb
  obtain ⟨ended, hlines, hflush⟩ := bind_eq_ok.mp hlast
  have hstart := follows_start hj.script.topics.whole hjsettled hpending hcurrent nameB
  rw [hj.old] at hstart
  obtain ⟨ended', hlines', hended⟩ := follows_readLines hstart hlines line
  obtain ⟨last', hflush', hlast'⟩ := follows_flush hended hflush
  have hobject' : ∀ o, last'.mode ≠ .object o := fun o ho => by
    obtain ⟨o', ho'⟩ := hlast'.mode.object_of_object ho
    exact hobject o' ho'
  refine ⟨j.script, last'.script, ?_, hj.script, hlast'.script⟩
  rw [hread, hlines']
  exact finish_eq_ok.mpr ⟨last', hflush', hobject', rfl⟩

end Reader

end Script

end Repartee
