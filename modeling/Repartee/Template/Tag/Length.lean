/-
  Repartee.Template.Tag.Length — a tag, and what it holds, are shorter than the text.

  `shorter_tag?` is why the reading of a template ends: both the text after a tag and the text
  inside it are shorter than the text that the tag begins. No alternative of a random block is
  longer than the block's body.
-/

import Repartee.Template.Tag

namespace Repartee.Template

open Text

/-! ## Bodies -/

theorem blockBody?_length {name : String} {depth : Nat} {cs body rest : List Char}
    (h : blockBody? name depth cs = some (body, rest)) : body.length + rest.length ≤ cs.length := by
  induction cs generalizing depth body with
  | nil => simp [blockBody?] at h
  | cons c cs ih =>
    have step {d : Nat} (h : (blockBody? name d cs).map (prepend c) = some (body, rest)) :
        body.length + rest.length ≤ (c :: cs).length := by
      obtain ⟨b, hb, rfl⟩ := map_prepend_eq_some.mp h
      have := ih hb
      simp only [List.length_cons]
      omega
    simp only [blockBody?] at h
    split at h
    · exact step h
    · split at h
      · rename_i hr
        simp only [Option.some.injEq, Prod.mk.injEq] at h
        obtain ⟨rfl, rfl⟩ := h
        have := after?_length hr
        simp only [List.length_nil]
        omega
      · exact step h
      · exact step h

theorem angleBody?_length {depth : Nat} {cs body rest : List Char}
    (h : angleBody? depth cs = some (body, rest)) : body.length + rest.length < cs.length := by
  induction cs generalizing depth body with
  | nil => simp [angleBody?] at h
  | cons c cs ih =>
    have step {d : Nat} (h : (angleBody? d cs).map (prepend c) = some (body, rest)) :
        body.length + rest.length < (c :: cs).length := by
      obtain ⟨b, hb, rfl⟩ := map_prepend_eq_some.mp h
      have := ih hb
      simp only [List.length_cons]
      omega
    simp only [angleBody?] at h
    split at h
    · exact step h
    · split at h
      · split at h
        · simp only [Option.some.injEq, Prod.mk.injEq] at h
          obtain ⟨rfl, rfl⟩ := h
          simp
        · exact step h
      · exact step h

/-! ## Tags -/

/-- A tag that was read from `cs`, with what follows it: both are shorter. -/
def Shorter (cs : List Char) (found : Tag × List Char) : Prop :=
  found.2.length < cs.length ∧ found.1.inside.length < cs.length

theorem bracedAfter?_length {start : String} {cs a b : List Char} (hs : 0 < start.toList.length)
    (h : bracedAfter? start cs = some (some (a, b))) : a.length < cs.length ∧ b.length < cs.length := by
  simp only [bracedAfter?, Option.map_eq_some_iff] at h
  obtain ⟨inside, hi, hc⟩ := h
  have := after?_length hi
  have := cutOnce_length hc
  omega

theorem length_pos_of_bracedAfter? {start : String} {cs : List Char} {found : Option (List Char × List Char)}
    (hs : 0 < start.toList.length) (h : bracedAfter? start cs = some found) : 0 < cs.length := by
  simp only [bracedAfter?, Option.map_eq_some_iff] at h
  obtain ⟨inside, hi, -⟩ := h
  have := after?_length hi
  omega

theorem shorter_weightTag? {cs : List Char} {found : Tag × List Char} (h : weightTag? cs = some found) :
    Shorter cs found := by
  simp only [weightTag?, Option.map_eq_some_iff, Option.join_eq_some_iff] at h
  obtain ⟨⟨value, rest⟩, hb, rfl⟩ := h
  have := bracedAfter?_length (by simp) hb
  exact ⟨this.2, by simp only [Tag.inside, List.length_nil]; omega⟩

theorem shorter_blockTag? {name : String} {tag : List Char → Tag} {what : Unclosed} {cs : List Char}
    {found : Tag × List Char} (hin : ∀ body, (tag body).inside = body)
    (h : blockTag? name tag what cs = some found) : Shorter cs found := by
  simp only [blockTag?] at h
  split at h
  · simp at h
  · rename_i inside hi
    have hl := after?_length hi
    have hpos : 0 < (openingOf name).length := by simp [openingOf]
    split at h
    · rename_i body rest hb
      have := blockBody?_length hb
      cases h
      exact ⟨by simp only; omega, by simp only [hin]; omega⟩
    · cases h
      exact ⟨by simp only [List.length_nil]; omega, by simp only [Tag.inside, List.length_nil]; omega⟩

theorem shorter_redirectTag? {cs : List Char} {found : Tag × List Char} (h : redirectTag? cs = some found) :
    Shorter cs found := by
  simp only [redirectTag?, Option.map_eq_some_iff] at h
  obtain ⟨braced, hb, rfl⟩ := h
  split
  · have := bracedAfter?_length (by simp) hb
    exact ⟨by simp only; omega, by simp only [Tag.inside]; exact Nat.lt_of_le_of_lt (length_trim_le _) (by omega)⟩
  · have := length_pos_of_bracedAfter? (by simp) hb
    exact ⟨by simpa using this, by simpa [Tag.inside] using this⟩

theorem shorter_topicTag? {cs : List Char} {found : Tag × List Char} (h : topicTag? cs = some found) :
    Shorter cs found := by
  simp only [topicTag?, Option.map_eq_some_iff, Option.join_eq_some_iff] at h
  obtain ⟨⟨name, rest⟩, hb, rfl⟩ := h
  have := bracedAfter?_length (by simp) hb
  exact ⟨this.2, by simp only [Tag.inside, List.length_nil]; omega⟩

theorem shorter_recaseTag? {cs : List Char} {found : Tag × List Char} (h : recaseTag? cs = some found) :
    Shorter cs found := by
  obtain ⟨_, -, h⟩ := List.exists_of_findSome?_eq_some h
  exact shorter_blockTag? (fun _ => rfl) h

theorem shorter_braceTag? {cs : List Char} {found : Tag × List Char} (h : braceTag? cs = some found) :
    Shorter cs found := by
  simp only [braceTag?, Option.orElse_eq_orElse, Option.orElse_eq_or, Option.or_eq_some_iff] at h
  rcases h with h | ⟨-, h | ⟨-, h | ⟨-, h | ⟨-, h⟩⟩⟩⟩
  · exact shorter_weightTag? h
  · exact shorter_blockTag? (fun _ => rfl) h
  · exact shorter_redirectTag? h
  · exact shorter_topicTag? h
  · exact shorter_recaseTag? h

theorem shorter_callTag? {cs : List Char} {found : Tag × List Char} (h : callTag? cs = some found) :
    Shorter cs found := by
  simp only [callTag?, Option.map_eq_some_iff] at h
  obtain ⟨inside, hi, rfl⟩ := h
  have hl := after?_length hi
  have hpos : 0 < "<call>".toList.length := by simp
  split
  · rename_i line rest hc
    have := cutAt_length hc
    exact ⟨by simp only; omega, Nat.lt_of_le_of_lt (length_trim_le _) (by omega)⟩
  · exact ⟨by simp only [List.length_nil]; omega, by simp only [Tag.inside, List.length_nil]; omega⟩

theorem length_inside_namedTag? {name args : List Char} {t : Tag} (h : namedTag? name args = some t) :
    t.inside.length ≤ args.length := by
  have hw {word : String} {tag : String → List Char → Tag} (hw : writing? word = some tag) (v : String)
      (cs : List Char) : (tag v cs).inside = cs := by
    simp only [writing?] at hw
    repeat' split at hw
    all_goals first
      | (cases hw; rfl)
      | simp at hw
  simp only [namedTag?] at h
  split at h
  · cases h; simp [Tag.inside]
  · split at h
    · cases h; simp [Tag.inside]
    · split at h
      · split at h
        · cases h; simp [Tag.inside]
        · simp at h
      · rename_i hwr
        split at h
        · rename_i var value hc
          split at h
          · cases h
            rw [hw hwr]
            have := cutOnce_length hc
            exact Nat.le_trans (length_trim_le _) (by omega)
          · simp at h
        · simp at h
      · split at h
        · cases h; simp [Tag.inside]
        · simp at h
      · simp only [Option.map_eq_some_iff] at h
        obtain ⟨_, -, rfl⟩ := h
        simp [Tag.inside]

theorem shorter_pairedTag? {c : Char} {cs : List Char} {found : Tag × List Char}
    (h : pairedTag? cs = some found) : Shorter (c :: cs) found := by
  simp only [pairedTag?] at h
  split at h
  · simp at h
  · rename_i inside rest ha
    have hl := angleBody?_length ha
    simp only [Option.map_eq_some_iff] at h
    obtain ⟨t, ht, rfl⟩ := h
    have hargs : ((cutOnce Unicode.isBlank inside).getD (inside, [])).2.length ≤ inside.length := by
      cases hc : cutOnce Unicode.isBlank inside with
      | none => simp
      | some found =>
        have := cutOnce_length hc
        simp only [Option.getD_some]
        omega
    have := length_inside_namedTag? ht
    have := length_trim_le ((cutOnce Unicode.isBlank inside).getD (inside, [])).2
    exact ⟨by simp only [List.length_cons]; omega, by simp only [List.length_cons]; omega⟩

theorem shorter_tag? {cs : List Char} {found : Tag × List Char} (h : tag? cs = some found) :
    Shorter cs found := by
  cases cs with
  | nil => simp [tag?] at h
  | cons c cs =>
    simp only [tag?] at h
    split at h
    · exact shorter_braceTag? h
    · split at h
      · simp only [Option.orElse_eq_orElse, Option.orElse_eq_or, Option.or_eq_some_iff] at h
        rcases h with h | ⟨-, h⟩
        · exact shorter_callTag? h
        · exact shorter_pairedTag? h
      · simp at h

/-! ## Alternatives -/

theorem length_le_of_mem_cutBars {depth : Nat} {cs a : List Char} (h : a ∈ cutBars depth cs) :
    a.length ≤ cs.length := by
  induction cs generalizing depth a with
  | nil => simp [cutBars] at h; simp [h]
  | cons c cs ih =>
    have step {d : Nat} (h : a ∈ (cutBars d cs).modifyHead (c :: ·)) : a.length ≤ (c :: cs).length := by
      cases hb : cutBars d cs with
      | nil => simp [hb] at h
      | cons b bs =>
        simp only [hb, List.modifyHead_cons, List.mem_cons] at h
        rcases h with rfl | h
        · have : b.length ≤ cs.length := @ih d b (by simp [hb])
          simp only [List.length_cons]
          omega
        · exact Nat.le_succ_of_le (@ih d a (by simp [hb, h]))
    simp only [cutBars] at h
    split at h
    · exact step h
    · split at h
      · exact step h
      · split at h
        · rcases List.mem_cons.mp h with rfl | h
          · simp
          · exact Nat.le_succ_of_le (ih h)
        · exact step h

theorem length_le_of_mem_alternatives {body a : List Char} (h : a ∈ alternatives body) :
    a.length ≤ body.length := by
  simp only [alternatives] at h
  split at h
  · exact length_le_of_mem_words h
  · exact length_le_of_mem_cutBars h

end Repartee.Template
