/-
  Repartee.Proofs.Substitutions.Keys — which keys are met in messages.

  A message loses what is not alphanumeric at the ends of its words before keys are looked for in it. A key is put into
  lower case and cut at blanks, but its words are left as they are: one that begins or ends with a mark, as that of
  `c++`, is in no message.

  Proved:
  - A key is met in some message if its words begin and end alphanumeric, and only then (`edged_of_mem_edged`, `edged_key`).
  - A key that is its own message is replaced whole: no other key that fits is as long (`substituteFrom_key`).
  - A key that is met in no message may as well be missing (`substituteFrom_filter`).
-/

import Repartee.Proofs.Literals
import Repartee.Proofs.Substitutions

namespace Repartee

open Text
open Unicode (isAlphanumeric)

theorem edged_iff {cs : List Char} :
    Edged cs ↔ cs.head?.all isAlphanumeric = true ∧ cs.getLast?.all isAlphanumeric = true := by
  rw [Option.all_eq_true, Option.all_eq_true]
  exact ⟨fun h => ⟨h.first, h.last⟩, fun h => ⟨h.1, h.2⟩⟩

instance (cs : List Char) : Decidable (Edged cs) := decidable_of_iff' _ edged_iff

/-- The words of the key begin and end with letters, numbers and the like. -/
def Substitution.IsEdged (s : Substitution) : Prop := ∀ w ∈ s.key, Edged w.toList

instance (s : Substitution) : Decidable s.IsEdged := inferInstanceAs (Decidable (∀ w ∈ s.key, Edged w.toList))

namespace Lexicon

variable {s : Substitution} {subs : List Substitution} {pairs : List (String × String)} {w message : String} {ws : List String}

/-! ## The words that keys are looked for in -/

theorem edged_trimEdges (cs : List Char) : Edged (trimEdges cs) := by
  obtain ⟨hfirst, hlast⟩ := ends_dropEnds (!isAlphanumeric ·) cs
  constructor
  · intro c hc
    simpa using hfirst c hc
  · intro c hc
    simpa using hlast c hc

theorem edged_of_mem_edged (h : w ∈ edged message) : Edged w.toList := by
  obtain ⟨cs, hcs, rfl⟩ := List.mem_map.mp h
  obtain ⟨run, -, rfl⟩ := List.mem_map.mp (List.mem_filter.mp hcs).1
  rw [String.toList_ofList]
  exact edged_trimEdges run

/-- Nothing is trimmed from words that begin and end alphanumeric. -/
theorem edged_spaced (hwords : ∀ w ∈ ws, IsWord w) (hlower : ∀ w ∈ ws, lower w.toList = w.toList)
    (hedged : ∀ w ∈ ws, Edged w.toList) : edged (spaced ws) = ws := by
  have htrimmed : (Text.words (lower (spaced ws).toList)).map trimEdges = ws.map String.toList := by
    rw [words_lower, words_toList_spaced hwords, List.map_map, List.map_map]
    apply List.map_congr_left
    intro w hw
    show trimEdges (lower w.toList) = w.toList
    rw [hlower w hw, trimEdges_of_edged (hedged w hw)]
  rw [edged, htrimmed, filter_map_toList hwords, map_ofList_toList]

theorem lower_of_mem_lowerWords {text : String} (h : w ∈ lowerWords text) : lower w.toList = w.toList := by
  rw [lowerWords] at h
  obtain ⟨run, hrun, rfl⟩ := List.mem_map.mp h
  rw [lowercase, String.toList_ofList] at hrun
  rw [String.toList_ofList]
  apply lower_of_forall
  intro c hc
  exact lowerChar_of_mem_lower ((mem_words hrun).2 c hc).1

/-- A key whose words begin and end alphanumeric is a message of its own words. -/
theorem edged_key (h : s ∈ table pairs) (hedged : s.IsEdged) : edged (spaced s.key) = s.key := by
  obtain ⟨p, -, hkey, -⟩ := exists_of_mem_table h
  refine edged_spaced (isWord_of_mem_table h).1 ?_ hedged
  intro w hw
  rw [hkey] at hw
  exact lower_of_mem_lowerWords hw

/-! ## Keys in a table -/

/-- Of all keys that fit its words the key itself is the longest. -/
theorem substituteFrom_key (h : IsTable subs) (hs : s ∈ subs) : substituteFrom subs 0 s.key = s.value := by
  have hscans : Scans subs (s.key ++ []) (s.value ++ []) := by
    refine .replace hs ?_ .done
    intro t _ hfits
    rw [List.append_nil] at hfits
    exact hfits.length_le
  rw [List.append_nil, List.append_nil] at hscans
  exact substituteFrom_of_scans h hscans

/-- An entry whose key does not stand in the words makes no difference. -/
theorem substituteFrom_filter {q : Substitution → Bool} (h : ∀ s ∈ subs, q s = false → ¬ s.key <:+: ws) (skip : ℕ) :
    substituteFrom (subs.filter q) skip ws = substituteFrom subs skip ws := by
  induction ws generalizing skip with
  | nil => rw [substituteFrom, substituteFrom]
  | cons w ws ih =>
    -- What does not stand in the words does not stand in those behind the first either.
    replace ih : ∀ skip, substituteFrom (subs.filter q) skip ws = substituteFrom subs skip ws := by
      apply ih
      intro s hs hq hin
      exact h s hs hq (hin.trans (List.suffix_cons w ws).isInfix)
    cases skip with
    | succ skip => exact ih skip
    | zero =>
      have hfound : (subs.filter q).find? (·.key.isPrefixOf (w :: ws)) = subs.find? (·.key.isPrefixOf (w :: ws)) := by
        rw [List.find?_filter]
        apply List.find?_congr
        intro s hs
        rw [Bool.decide_and, Bool.decide_eq_true, Bool.decide_eq_true, Bool.and_eq_right_iff_imp]
        intro hfits
        by_contra hq
        exact h s hs (Bool.eq_false_iff.mpr hq) (List.isPrefixOf_iff_prefix.mp hfits).isInfix
      rw [substituteFrom, substituteFrom, hfound]
      cases subs.find? (·.key.isPrefixOf (w :: ws)) with
      | none => exact congrArg (w :: ·) (ih 0)
      | some s => exact congrArg (s.value ++ ·) (ih _)

/-- Without the entry. -/
def without (l : Lexicon) (s : Substitution) : Lexicon := { l with substitutions := l.substitutions.filter (· ≠ s) }

/-- A key is met in a message exactly if its words begin and end alphanumeric. Then it is read as what replaces it,
without punctuation; else no message is read otherwise than without its entry. -/
theorem key_met_iff (punctuation : Regex) (h : s ∈ table pairs) :
    let l := ofPairs punctuation pairs
    ((∃ message, s.key <:+: edged message) ↔ s.IsEdged) ∧
    (s.IsEdged → l.words (spaced s.key) = (s.value.map l.strip).filter (!·.isEmpty)) ∧
    (¬ s.IsEdged → ∀ message, (l.without s).words message = l.words message) := by
  intro l
  have hmet : ∀ message, s.key <:+: edged message → s.IsEdged := by
    intro message hin w hw
    exact edged_of_mem_edged (hin.subset hw)
  refine ⟨⟨?_, ?_⟩, ?_, ?_⟩
  · rintro ⟨message, hin⟩
    exact hmet message hin
  · intro hedged
    refine ⟨spaced s.key, ?_⟩
    rw [edged_key h hedged]
  · intro hedged
    have hreplaced : l.substitute s.key = s.value := substituteFrom_key (isTable_table pairs) h
    rw [words, edged_key h hedged, hreplaced]
  · intro hunedged message
    have hdropped : ∀ t ∈ table pairs, decide (t ≠ s) = false → ¬ t.key <:+: edged message := by
      intro t _ hts hin
      rw [decide_eq_false_iff_not, not_not] at hts
      exact hunedged (hmet message (hts ▸ hin))
    have hsame : (l.without s).substitute (edged message) = l.substitute (edged message) := substituteFrom_filter hdropped 0
    show (((l.without s).substitute (edged message)).map l.strip).filter _ = _
    rw [hsame, words]

/-- Of `what's up` and `what's up?` the first is met. -/
theorem key_met_iff_whats_up :
    let pairs := [("What's up?", "huh"), ("what's up", "Hi, there"), ("up", "-")]
    let greeting : Substitution := ⟨["what's", "up"], ["hi,", "there"]⟩
    let question : Substitution := ⟨["what's", "up?"], ["huh"]⟩
    let l := ofPairs standardPunctuation pairs
    (greeting ∈ table pairs ∧ greeting.IsEdged ∧ l.words "what's up" = ["hi", "there"]) ∧
      question ∈ table pairs ∧ ¬ question.IsEdged ∧ ∀ message, (l.without question).words message = l.words message := by
  intro pairs greeting question l
  have hdistinct : DistinctKeys pairs := by decide +kernel
  have hentries : entriesOf pairs = [question, greeting, ⟨["up"], ["-"]⟩] := by decide +kernel
  have hgreeting : greeting ∈ table pairs := (mem_table_iff hdistinct).mpr (by simp [hentries])
  have hquestion : question ∈ table pairs := (mem_table_iff hdistinct).mpr (by simp [hentries])
  have hmet : greeting.IsEdged := by decide +kernel
  have hnever : ¬ question.IsEdged := by decide +kernel
  obtain ⟨-, hread, -⟩ := key_met_iff standardPunctuation hgreeting
  obtain ⟨-, -, hdropped⟩ := key_met_iff standardPunctuation hquestion
  exact ⟨⟨hgreeting, hmet, (hread hmet).trans (by decide +kernel)⟩, hquestion, hnever, hdropped hnever⟩

/-- A key that ends with marks, or has no other characters, is in its table and is not read as what replaces it. -/
theorem keys_with_marks_are_not_read :
    let plus := ofPairs standardPunctuation [("c++", "cpp")]
    let smile := ofPairs standardPunctuation [(":)", "smile")]
    (plus.substitutions = [⟨["c++"], ["cpp"]⟩] ∧ (["cpp"].map plus.strip).filter (!·.isEmpty) = ["cpp"] ∧
      plus.words (spaced ["c++"]) = ["c"]) ∧
    smile.substitutions = [⟨[":)"], ["smile"]⟩] ∧ (["smile"].map smile.strip).filter (!·.isEmpty) = ["smile"] ∧
      smile.words (spaced [":)"]) = [] := by
  decide +kernel

end Lexicon

end Repartee
