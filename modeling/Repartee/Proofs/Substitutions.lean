/-
  Repartee.Proofs.Substitutions — what a table of substitutions does to words.

  A table is searched from the front for a key that the rest of the words begins with. Its entries are in a strict
  order, keys of more words first, so the key that is found is the longest that fits, and no other that fits is as
  long. Where two pairs have one key the table keeps the first; else it does not matter how the pairs are arranged.

  Proved:
  - A table has the first pair of each key that has a word, in strict order (`isTable_table`, `find?_table`).
  - The first entry that fits is the one with the longest key (`find?_fits_iff`), so the words are read once from the
    left, and what replaces a key is not read (`substituteFrom_eq_iff`).
  - Pairs without a key in common make one and the same table in every order, with an entry for each key that has a
    word (`substitute_longest`).
-/

import Mathlib.Data.List.Nodup
import Mathlib.Data.Prod.Lex
import Mathlib.Data.String.Basic
import Mathlib.Order.OrderDual
import Repartee.Lexicon
import Repartee.Proofs.Cutting

namespace Repartee

/-- Where an entry stands among others, the least first: keys of more words come before, then the words decide. -/
def Substitution.precedence (s : Substitution) : ℕᵒᵈ ×ₗ List String := toLex (OrderDual.toDual s.key.length, s.key)

namespace Lexicon

variable {s t : Substitution} {entries subs subs' : List Substitution} {k ws rest out : List String}

/-! ## The order of entries -/

theorem wordsLe_iff {as bs : List String} : wordsLe as bs = true ↔ as ≤ bs := by
  rw [le_iff_lt_or_eq]
  induction as generalizing bs with
  | nil => cases bs <;> simp [wordsLe]
  | cons a as ih =>
    cases bs with
    | nil => simp [wordsLe]
    | cons b bs =>
      simp only [wordsLe, Bool.or_eq_true, Bool.and_eq_true, decide_eq_true_eq, beq_iff_eq, ih, List.cons_lt_cons_iff,
        List.cons.injEq]
      tauto

theorem keyLe_iff : keyLe s t = true ↔ s.precedence ≤ t.precedence := by
  simp [keyLe, wordsLe_iff, Substitution.precedence, Prod.Lex.toLex_le_toLex]

theorem precedence_eq_iff : s.precedence = t.precedence ↔ s.key = t.key := by
  constructor
  · intro h
    simp only [Substitution.precedence, toLex_inj, Prod.mk.injEq] at h
    exact h.2
  · intro h
    simp [Substitution.precedence, h]

/-- An entry does not stand before one with a longer key. -/
theorem length_le_of_precedence (h : s.precedence ≤ t.precedence) : t.key.length ≤ s.key.length := by
  simp only [Substitution.precedence, Prod.Lex.toLex_le_toLex, OrderDual.toDual_lt_toDual, OrderDual.toDual_inj] at h
  omega

theorem keyLe_trans (s t u : Substitution) (hst : keyLe s t = true) (htu : keyLe t u = true) : keyLe s u = true := by
  rw [keyLe_iff] at *
  exact hst.trans htu

theorem keyLe_total (s t : Substitution) : (keyLe s t || keyLe t s) = true := by
  rw [Bool.or_eq_true, keyLe_iff, keyLe_iff]
  exact le_total _ _

/-- Sorting leaves entries of one key in their order. -/
theorem filter_mergeSort (entries : List Substitution) (k : List String) :
    (entries.mergeSort keyLe).filter (·.key = k) = entries.filter (·.key = k) := by
  have hsorted : (entries.filter (·.key = k)).Pairwise fun s t => keyLe s t = true := by
    rw [List.pairwise_filter]
    apply List.pairwise_of_forall
    intro s t hs ht
    simp only [decide_eq_true_eq] at hs ht
    rw [keyLe_iff]
    apply le_of_eq
    rw [precedence_eq_iff, hs, ht]
  -- They are sorted already, and a stable sort keeps what is.
  have hkept := (List.sublist_mergeSort keyLe_trans keyLe_total hsorted List.filter_sublist).filter (·.key = k)
  rw [List.filter_filter] at hkept
  simp only [Bool.and_self] at hkept
  exact (hkept.eq_of_length ((List.mergeSort_perm entries keyLe).filter _).length_eq.symm).symm

/-! ## Repeated keys -/

/-- Only entries that follow one with their key are dropped, so the first of each key stays. -/
theorem find?_dropRepeats (entries : List Substitution) (k : List String) :
    (dropRepeats entries).find? (·.key = k) = entries.find? (·.key = k) := by
  induction entries with
  | nil => rfl
  | cons s entries ih =>
    by_cases hs : s.key = k
    · simp [dropRepeats, hs]
    · rw [dropRepeats, List.find?_cons_of_neg (by simpa using hs), List.find?_cons_of_neg (by simpa using hs), ← ih]
      cases dropRepeats entries with
      | nil => rfl
      | cons t ts =>
        by_cases ht : t.key = s.key
        · simp [ht, hs]
        · simp [ht]

theorem dropRepeats_sublist (entries : List Substitution) : (dropRepeats entries).Sublist entries := by
  induction entries with
  | nil => exact .slnil
  | cons s entries ih =>
    rw [dropRepeats]
    cases hrest : dropRepeats entries with
    | nil => exact (List.nil_sublist entries).cons_cons s
    | cons t ts =>
      rw [hrest] at ih
      refine List.Sublist.cons_cons s ?_
      show List.Sublist (if t.key = s.key then ts else t :: ts) entries
      split
      · exact (List.sublist_cons_self t ts).trans ih
      · exact ih

/-- Of entries in order, with repetitions, each key is left once. -/
theorem ascending_dropRepeats (h : entries.Pairwise (·.precedence ≤ ·.precedence)) :
    (dropRepeats entries).Pairwise (·.precedence < ·.precedence) := by
  induction entries with
  | nil => exact .nil
  | cons s entries ih =>
    obtain ⟨hs, hentries⟩ := List.pairwise_cons.mp h
    replace ih := ih hentries
    have hrest : ∀ t ∈ dropRepeats entries, s.precedence ≤ t.precedence := fun t ht =>
      hs t ((dropRepeats_sublist entries).subset ht)
    rw [dropRepeats]
    cases hdropped : dropRepeats entries with
    | nil => simp
    | cons t ts =>
      rw [hdropped] at ih hrest
      obtain ⟨ht, hts⟩ := List.pairwise_cons.mp ih
      have hst : s.precedence ≤ t.precedence := hrest t List.mem_cons_self
      by_cases heq : t.key = s.key
      · simp only [heq, if_true]
        refine List.pairwise_cons.mpr ⟨?_, hts⟩
        intro u hu
        exact hst.trans_lt (ht u hu)
      · have hlt : s.precedence < t.precedence := by
          refine lt_of_le_of_ne hst ?_
          intro hsame
          exact heq (precedence_eq_iff.mp hsame).symm
        simp only [heq, if_false]
        refine List.pairwise_cons.mpr ⟨?_, ih⟩
        intro u hu
        rcases List.mem_cons.mp hu with rfl | hu
        · exact hlt
        · exact hlt.trans (ht u hu)

/-! ## Tables -/

/-- Entries as a table holds them: each key has a word, and the entries are in strict order. -/
structure IsTable (subs : List Substitution) : Prop where
  keyed : ∀ s ∈ subs, s.key ≠ []
  ascending : subs.Pairwise (·.precedence < ·.precedence)

theorem IsTable.nodup_keys (h : IsTable subs) : (subs.map (·.key)).Nodup := by
  rw [List.Nodup, List.pairwise_map]
  apply h.ascending.imp
  intro s t hlt heq
  exact hlt.ne (precedence_eq_iff.mpr heq)

theorem IsTable.eq_of_key (h : IsTable subs) (hs : s ∈ subs) (ht : t ∈ subs) (hkey : s.key = t.key) : s = t :=
  List.inj_on_of_nodup_map h.nodup_keys hs ht hkey

/-- A table is told by its entries. -/
theorem IsTable.eq_of_mem_iff (h : IsTable subs) (h' : IsTable subs') (hmem : ∀ s, s ∈ subs ↔ s ∈ subs') :
    subs = subs' := by
  have hperm : subs.Perm subs' := (List.perm_ext_iff_of_nodup h.nodup_keys.of_map h'.nodup_keys.of_map).mpr hmem
  refine hperm.eq_of_pairwise ?_ h.ascending h'.ascending
  intro s t _ _ hst hts
  exact absurd (hst.trans hts) (lt_irrefl _)

theorem exists_find? {p : Substitution → Bool} (hs : s ∈ subs) (hp : p s = true) : ∃ t, subs.find? p = some t :=
  Option.isSome_iff_exists.mp (List.find?_isSome.mpr ⟨s, hs, hp⟩)

/-- The entry of a key is found by it. -/
theorem IsTable.find?_eq_some_iff (h : IsTable subs) : subs.find? (·.key = k) = some s ↔ s ∈ subs ∧ s.key = k := by
  constructor
  · intro hfound
    have hkey := List.find?_some hfound
    exact ⟨List.mem_of_find?_eq_some hfound, by simpa using hkey⟩
  · rintro ⟨hs, rfl⟩
    obtain ⟨t, ht⟩ := exists_find? (p := (·.key = s.key)) hs (by simp)
    have hkey := List.find?_some ht
    rw [ht, h.eq_of_key (List.mem_of_find?_eq_some ht) hs (by simpa using hkey)]

/-- The pairs as entries, but for those without a word in their key. -/
def entriesOf (pairs : List (String × String)) : List Substitution :=
  (pairs.map fun (k, v) => { key := lowerWords k, value := lowerWords v }).filter (!·.key.isEmpty)

variable {pairs pairs' : List (String × String)}

theorem mem_entriesOf : s ∈ entriesOf pairs ↔
    s.key ≠ [] ∧ ∃ p ∈ pairs, s = { key := lowerWords p.1, value := lowerWords p.2 } := by
  rw [entriesOf, List.mem_filter, List.mem_map]
  constructor
  · rintro ⟨⟨p, hp, rfl⟩, hkey⟩
    exact ⟨by simpa using hkey, p, hp, rfl⟩
  · rintro ⟨hkey, p, hp, rfl⟩
    exact ⟨⟨p, hp, rfl⟩, by simpa using hkey⟩

theorem mem_entriesOf_of_mem_table (h : s ∈ table pairs) : s ∈ entriesOf pairs := by
  have hsub : (table pairs).Sublist ((entriesOf pairs).mergeSort keyLe) := dropRepeats_sublist _
  exact List.mem_mergeSort.mp (hsub.subset h)

theorem isTable_table (pairs : List (String × String)) : IsTable (table pairs) := by
  constructor
  · intro s hs
    exact (mem_entriesOf.mp (mem_entriesOf_of_mem_table hs)).1
  · apply ascending_dropRepeats
    exact (List.pairwise_mergeSort keyLe_trans keyLe_total _).imp keyLe_iff.mp

theorem isWord_of_mem_lowerWords {w text : String} (h : w ∈ lowerWords text) : Text.IsWord w := by
  rw [lowerWords] at h
  exact Text.isWord_of_mem_wordsOf h

/-- An entry has the words of a pair. -/
theorem exists_of_mem_table (h : s ∈ table pairs) : ∃ p ∈ pairs, s.key = lowerWords p.1 ∧ s.value = lowerWords p.2 := by
  obtain ⟨-, p, hp, heq⟩ := mem_entriesOf.mp (mem_entriesOf_of_mem_table h)
  exact ⟨p, hp, by rw [heq], by rw [heq]⟩

theorem isWord_of_mem_table (h : s ∈ table pairs) : (∀ w ∈ s.key, Text.IsWord w) ∧ ∀ w ∈ s.value, Text.IsWord w := by
  obtain ⟨p, -, hkey, hvalue⟩ := exists_of_mem_table h
  rw [hkey, hvalue]
  exact ⟨fun w => isWord_of_mem_lowerWords, fun w => isWord_of_mem_lowerWords⟩

/-- The first pair of a key is the one that the table has. -/
theorem find?_table (pairs : List (String × String)) (k : List String) :
    (table pairs).find? (·.key = k) = (entriesOf pairs).find? (·.key = k) := by
  have hdropped : (table pairs).find? (·.key = k) = ((entriesOf pairs).mergeSort keyLe).find? (·.key = k) :=
    find?_dropRepeats _ k
  rw [hdropped, ← List.head?_filter, ← List.head?_filter, filter_mergeSort]

/-! ## Reading once from the left -/

/-- What words are with the longest keys replaced, from the left: where keys fit the longest is replaced and the reading
goes on behind it, and where none fits a word is kept. -/
inductive Scans (subs : List Substitution) : List String → List String → Prop
  | done : Scans subs [] []
  | replace {s : Substitution} {rest out : List String} : s ∈ subs →
      (∀ t ∈ subs, t.key <+: s.key ++ rest → t.key.length ≤ s.key.length) → Scans subs rest out →
      Scans subs (s.key ++ rest) (s.value ++ out)
  | keep {w : String} {rest out : List String} : (∀ t ∈ subs, ¬ t.key <+: w :: rest) → Scans subs rest out →
      Scans subs (w :: rest) (w :: out)

/-- The first entry that fits is the one with the longest key of those that fit. -/
theorem find?_fits_iff (h : IsTable subs) : subs.find? (·.key.isPrefixOf ws) = some s ↔
    s ∈ subs ∧ s.key <+: ws ∧ ∀ t ∈ subs, t.key <+: ws → t.key.length ≤ s.key.length := by
  have hfirst : ∀ {s}, subs.find? (·.key.isPrefixOf ws) = some s →
      s ∈ subs ∧ s.key <+: ws ∧ ∀ t ∈ subs, t.key <+: ws → t.key.length ≤ s.key.length := by
    intro s hfound
    obtain ⟨hfits, before, after, rfl, hbefore⟩ := List.find?_eq_some_iff_append.mp hfound
    refine ⟨by simp, List.isPrefixOf_iff_prefix.mp hfits, ?_⟩
    intro t ht htfits
    rcases List.mem_append.mp ht with ht | ht
    · have hmisses := hbefore t ht
      rw [List.isPrefixOf_iff_prefix.mpr htfits] at hmisses
      cases hmisses
    · rcases List.mem_cons.mp ht with rfl | ht
      · exact Nat.le_refl _
      · have hlater := (List.pairwise_append.mp h.ascending).2.1
        exact length_le_of_precedence ((List.pairwise_cons.mp hlater).1 t ht).le
  constructor
  · exact hfirst
  · rintro ⟨hs, hfits, hlongest⟩
    obtain ⟨t, ht⟩ := exists_find? (p := (·.key.isPrefixOf ws)) hs (List.isPrefixOf_iff_prefix.mpr hfits)
    obtain ⟨hmem, htfits, htlongest⟩ := hfirst ht
    -- Of one length, both keys are the same beginning of the words.
    have hlength : s.key.length = t.key.length := Nat.le_antisymm (htlongest s hs hfits) (hlongest t hmem htfits)
    have hkey : s.key = t.key := (List.prefix_of_prefix_length_le hfits htfits hlength.le).eq_of_length hlength
    rw [ht, h.eq_of_key hs hmem hkey]

theorem substituteFrom_drop (subs : List Substitution) (skip : ℕ) (ws : List String) :
    substituteFrom subs skip ws = substituteFrom subs 0 (ws.drop skip) := by
  induction ws generalizing skip with
  | nil => cases skip <;> simp [substituteFrom]
  | cons w ws ih =>
    cases skip with
    | zero => rfl
    | succ skip => rw [substituteFrom, ih, List.drop_succ_cons]

/-- A key that fits is replaced, and the words behind it are read. -/
theorem substituteFrom_replace (hne : s.key ≠ []) (h : subs.find? (·.key.isPrefixOf (s.key ++ rest)) = some s) :
    substituteFrom subs 0 (s.key ++ rest) = s.value ++ substituteFrom subs 0 rest := by
  obtain ⟨w, key, hkey⟩ := List.exists_cons_of_ne_nil hne
  rw [hkey, List.cons_append] at h ⊢
  rw [substituteFrom, h]
  dsimp only
  rw [substituteFrom_drop, hkey, List.length_cons, Nat.add_sub_cancel, List.drop_left]

theorem substituteFrom_keep {w : String} (h : ∀ t ∈ subs, ¬ t.key <+: w :: rest) :
    substituteFrom subs 0 (w :: rest) = w :: substituteFrom subs 0 rest := by
  have hnone : subs.find? (·.key.isPrefixOf (w :: rest)) = none :=
    List.find?_eq_none.mpr fun t ht hfits => h t ht (List.isPrefixOf_iff_prefix.mp hfits)
  rw [substituteFrom, hnone]

/-- A table replaces the longest keys from the left. -/
theorem scans_substituteFrom (h : IsTable subs) (ws : List String) : Scans subs ws (substituteFrom subs 0 ws) := by
  -- By the number of words, since a key takes several of them at once.
  induction hlength : ws.length using Nat.strong_induction_on generalizing ws with
  | _ n ih =>
    cases ws with
    | nil => exact .done
    | cons w rest =>
      cases hfound : subs.find? (·.key.isPrefixOf (w :: rest)) with
      | none =>
        have hmisses : ∀ t ∈ subs, ¬ t.key <+: w :: rest := fun t ht hfits =>
          List.find?_eq_none.mp hfound t ht (List.isPrefixOf_iff_prefix.mpr hfits)
        rw [substituteFrom_keep hmisses]
        exact .keep hmisses (ih rest.length (by simp [← hlength]) rest rfl)
      | some s =>
        obtain ⟨hs, ⟨later, hws⟩, hlongest⟩ := (find?_fits_iff h).mp hfound
        rw [← hws] at hfound hlongest hlength ⊢
        rw [substituteFrom_replace (h.keyed s hs) hfound]
        have hpos : 0 < s.key.length := List.length_pos_of_ne_nil (h.keyed s hs)
        exact .replace hs hlongest (ih later.length (by simp only [List.length_append] at hlength; omega) later rfl)

theorem substituteFrom_of_scans (h : IsTable subs) (hscans : Scans subs ws out) : substituteFrom subs 0 ws = out := by
  induction hscans with
  | done => rfl
  | replace hs hlongest _ ih =>
    rw [substituteFrom_replace (h.keyed _ hs) ((find?_fits_iff h).mpr ⟨hs, List.prefix_append _ _, hlongest⟩), ih]
  | keep hmisses _ ih => rw [substituteFrom_keep hmisses, ih]

/-- What a table makes of words, and nothing else, is what they are with the longest keys replaced. -/
theorem substituteFrom_eq_iff (h : IsTable subs) : substituteFrom subs 0 ws = out ↔ Scans subs ws out := by
  constructor
  · rintro rfl
    exact scans_substituteFrom h ws
  · exact substituteFrom_of_scans h

theorem Scans.congr (hmem : ∀ s, s ∈ subs ↔ s ∈ subs') (h : Scans subs ws out) : Scans subs' ws out := by
  induction h with
  | done => exact .done
  | replace hs hlongest _ ih => exact .replace ((hmem _).mp hs) (fun t ht => hlongest t ((hmem t).mpr ht)) ih
  | keep hmisses _ ih => exact .keep (fun t ht => hmisses t ((hmem t).mpr ht)) ih

/-! ## Pairs without a key in common -/

/-- No two pairs have one key, but for those without a word in theirs. -/
def DistinctKeys (pairs : List (String × String)) : Prop := ((entriesOf pairs).map (·.key)).Nodup

instance : Decidable (DistinctKeys pairs) := inferInstanceAs (Decidable (List.Nodup _))

theorem mem_table_iff (h : DistinctKeys pairs) : s ∈ table pairs ↔ s ∈ entriesOf pairs := by
  have hfound : s ∈ table pairs ↔ (entriesOf pairs).find? (·.key = s.key) = some s := by
    rw [← find?_table, (isTable_table pairs).find?_eq_some_iff, and_iff_left rfl]
  rw [hfound]
  constructor
  · exact List.mem_of_find?_eq_some
  · intro hs
    obtain ⟨t, ht⟩ := exists_find? (p := (·.key = s.key)) hs (by simp)
    have hkey := List.find?_some ht
    rw [ht, List.inj_on_of_nodup_map h (List.mem_of_find?_eq_some ht) hs (by simpa using hkey)]

theorem DistinctKeys.perm (h : DistinctKeys pairs) (hperm : pairs'.Perm pairs) : DistinctKeys pairs' :=
  (((hperm.map _).filter _).map _).nodup_iff.mpr h

/-- Pairs that are rearranged make the same table. -/
theorem table_of_perm (h : DistinctKeys pairs) (hperm : pairs'.Perm pairs) : table pairs' = table pairs := by
  apply (isTable_table pairs').eq_of_mem_iff (isTable_table pairs)
  intro s
  rw [mem_table_iff h, mem_table_iff (h.perm hperm)]
  exact ((hperm.map _).filter _).mem_iff

theorem length_table (h : DistinctKeys pairs) : (table pairs).length = pairs.countP fun p => lowerWords p.1 ≠ [] := by
  have hperm : (table pairs).Perm (entriesOf pairs) :=
    (List.perm_ext_iff_of_nodup (isTable_table pairs).nodup_keys.of_map h.of_map).mpr fun s => mem_table_iff h
  rw [hperm.length_eq, entriesOf, ← List.countP_eq_length_filter, List.countP_map]
  apply List.countP_congr
  intro p _
  simp

/-- If no two pairs have one key, the longest keys are replaced from the left, each once, however the pairs are
arranged, and the table has an entry for each key that has a word. -/
theorem substitute_longest (punctuation : Regex) (h : DistinctKeys pairs) :
    (∀ ws out, (ofPairs punctuation pairs).substitute ws = out ↔ Scans (entriesOf pairs) ws out) ∧
    (∀ pairs', pairs'.Perm pairs → ofPairs punctuation pairs' = ofPairs punctuation pairs) ∧
    (ofPairs punctuation pairs).substitutions.length = pairs.countP fun p => lowerWords p.1 ≠ [] := by
  refine ⟨?_, ?_, length_table h⟩
  · intro ws out
    have htable : (ofPairs punctuation pairs).substitute ws = out ↔ Scans (table pairs) ws out :=
      substituteFrom_eq_iff (isTable_table pairs)
    rw [htable]
    constructor
    · apply Scans.congr
      intro s
      exact mem_table_iff h
    · apply Scans.congr
      intro s
      exact (mem_table_iff h).symm
  · intro pairs' hperm
    rw [ofPairs, ofPairs, table_of_perm h hperm]

/-- Where the keys `a b` and `b` overlap the longer one is replaced, and of what replaces it nothing is. -/
theorem substitute_longest_overlapping :
    let pairs := [("b", "z"), ("  ", "blank"), ("a", "b b"), ("A b", "a b")]
    DistinctKeys pairs ∧
      (ofPairs standardPunctuation pairs).substitute ["a", "b", "b", "a", "c"] = ["a", "b", "z", "b", "b", "c"] ∧
      ofPairs standardPunctuation pairs.reverse = ofPairs standardPunctuation pairs ∧
      (ofPairs standardPunctuation pairs).substitutions.length = 3 := by
  intro pairs
  have hdistinct : DistinctKeys pairs := by decide +kernel
  have hentries : entriesOf pairs = [⟨["b"], ["z"]⟩, ⟨["a"], ["b", "b"]⟩, ⟨["a", "b"], ["a", "b"]⟩] := by
    decide +kernel
  obtain ⟨hscans, hperm, hcount⟩ := substitute_longest standardPunctuation hdistinct
  refine ⟨hdistinct, (hscans _ _).mpr ?_, hperm _ (List.reverse_perm pairs), hcount.trans (by decide +kernel)⟩
  rw [hentries]
  refine .replace (s := ⟨["a", "b"], ["a", "b"]⟩) (by simp) (by decide) ?_
  refine .replace (s := ⟨["b"], ["z"]⟩) (by simp) (by decide) ?_
  refine .replace (s := ⟨["a"], ["b", "b"]⟩) (by simp) (by decide) ?_
  exact .keep (by decide) .done

end Lexicon

end Repartee
