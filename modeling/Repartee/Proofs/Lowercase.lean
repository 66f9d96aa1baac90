/-
  Repartee.Proofs.Lowercase — what the case tables do to texts.

  A property of characters is a table of ranges, a case map one of runs. Both ascend, so what holds of all
  characters is checked run by run, against the ranges and the other runs nearby.

  Proved:
  - A lowercase image is no source of a run, no blank, and no letter or number unless its source was one
    (`lowerChar_of_mem`, `isBlank_of_mem_lowerChar`, `isTextual_of_mem_lowerChar`).
  - Lowering a lowered text changes nothing (`lower_lower`), also if characters were removed in between
    (`lower_of_forall`).
  - Lowering acts on each word by itself (`words_lower`).
-/

import Mathlib.Data.List.Chain
import Repartee.Proofs.Cutting
import Repartee.Text.Casing
import Repartee.Unicode.Number

namespace Repartee.Unicode

/-! ## Ranges -/

/-- The ranges start in ascending order. -/
def Ranges.Ascending (ranges : Ranges) : Prop := ranges.IsChain fun r s => r.1 ≤ s.1

instance (ranges : Ranges) : Decidable ranges.Ascending := inferInstanceAs (Decidable (ranges.IsChain fun r s => r.1 ≤ s.1))

theorem Ranges.Ascending.le {r s : Nat × Nat} {ranges : Ranges} (h : Ranges.Ascending (r :: ranges)) (hs : s ∈ ranges) :
    r.1 ≤ s.1 := by
  have : IsTrans (Nat × Nat) (fun r s => r.1 ≤ s.1) := ⟨fun _ _ _ => Nat.le_trans⟩
  exact h.rel_cons hs

theorem Ranges.covers_of_mem {ranges : Ranges} {r : Nat × Nat} {n : Nat} (h : ranges.Ascending) (hr : r ∈ ranges)
    (hn : r.1 ≤ n ∧ n ≤ r.2) : ranges.covers n = true := by
  induction ranges with
  | nil => cases hr
  | cons first ranges ih =>
    have hleast : first.1 ≤ n := by
      rcases List.mem_cons.mp hr with rfl | hr
      · exact hn.1
      · exact (h.le hr).trans hn.1
    rw [Ranges.covers, if_neg (by omega), Bool.or_eq_true, decide_eq_true_eq]
    rcases List.mem_cons.mp hr with rfl | hr
    · exact .inl hn.2
    · exact .inr (ih h.tail hr)

theorem Ranges.exists_of_covers {ranges : Ranges} {n : Nat} (h : ranges.covers n = true) : ∃ r ∈ ranges, r.1 ≤ n ∧ n ≤ r.2 := by
  induction ranges with
  | nil => cases h
  | cons first ranges ih =>
    rw [Ranges.covers] at h
    split at h
    · cases h
    · rename_i hle
      rw [Bool.or_eq_true, decide_eq_true_eq] at h
      rcases h with h | h
      · exact ⟨first, List.mem_cons_self, by omega, h⟩
      · obtain ⟨r, hr, hn⟩ := ih h
        exact ⟨r, List.mem_cons_of_mem _ hr, hn⟩

/-- Whether the first range that does not end before `lo` starts after `hi`. -/
def Ranges.misses (ranges : Ranges) (lo hi : Nat) : Bool :=
  (ranges.dropWhile fun r => Nat.blt r.2 lo).head?.all fun r => Nat.blt hi r.1

theorem Ranges.apart_of_misses {ranges : Ranges} {lo hi : Nat} (h : ranges.Ascending) (hmisses : ranges.misses lo hi = true) :
    ∀ r ∈ ranges, r.2 < lo ∨ hi < r.1 := by
  induction ranges with
  | nil => exact List.forall_mem_nil _
  | cons first ranges ih =>
    rw [misses] at hmisses
    by_cases hbefore : first.2 < lo
    · rw [List.dropWhile_cons_of_pos (by simpa using hbefore)] at hmisses
      exact List.forall_mem_cons.mpr ⟨.inl hbefore, ih h.tail hmisses⟩
    · rw [List.dropWhile_cons_of_neg (by simpa using hbefore), List.head?_cons, Option.all_some, Nat.blt_eq] at hmisses
      refine List.forall_mem_cons.mpr ⟨.inr hmisses, fun r hr => .inr ?_⟩
      exact Nat.lt_of_lt_of_le hmisses (h.le hr)

theorem Ranges.covers_of_misses {ranges : Ranges} {lo hi n : Nat} (h : ranges.Ascending) (hmisses : ranges.misses lo hi = true)
    (hn : lo ≤ n ∧ n ≤ hi) : ranges.covers n = false := by
  rw [Bool.eq_false_iff]
  intro hcovers
  obtain ⟨r, hr, hrange⟩ := exists_of_covers hcovers
  have := apart_of_misses h hmisses r hr
  omega

/-! ## Runs -/

/-- A code point that a run maps. -/
structure CaseRun.Maps (r : CaseRun) (n : Nat) : Prop where
  lower : r.first ≤ n
  upper : n ≤ r.last
  step : (n - r.first) % r.step = 0

theorem exists_of_caseImage {runs : List CaseRun} {n m : Nat} (h : caseImage runs n = some m) :
    ∃ r ∈ runs, r.Maps n ∧ m = r.image + (n - r.first) := by
  induction runs with
  | nil => cases h
  | cons run runs ih =>
    rw [caseImage] at h
    split at h
    · cases h
    split at h
    · split at h
      · rename_i hlower hupper hstep
        exact ⟨run, List.mem_cons_self, ⟨by omega, hupper, hstep⟩, (Option.some.inj h).symm⟩
      · cases h
    · obtain ⟨r, hr, hmaps⟩ := ih h
      exact ⟨r, List.mem_cons_of_mem _ hr, hmaps⟩

/-- The code points between the first and the last of a run. -/
def CaseRun.range (r : CaseRun) : Nat × Nat := (r.first, r.last)

def sourceRanges : Ranges := lowerRuns.map CaseRun.range

/-- The image of the last code point that a run can map. -/
def CaseRun.imageLast (r : CaseRun) : Nat := r.image + (r.last - r.first)

theorem CaseRun.Maps.image {r : CaseRun} {n : Nat} (h : r.Maps n) :
    r.image ≤ r.image + (n - r.first) ∧ r.image + (n - r.first) ≤ r.imageLast := by
  have := h.upper
  rw [imageLast]
  omega

/-- Whether `s` maps every other code point, and the images under `r` are among the rest. -/
def CaseRun.alternates (r s : CaseRun) : Bool :=
  Nat.beq s.step 2 && ((Nat.beq r.first r.last || Nat.beq r.step 2) && Nat.beq ((r.image + s.first) % 2) 1)

theorem CaseRun.Maps.not_maps {r s : CaseRun} {n : Nat} (h : r.Maps n)
    (hapart : s.last < r.image ∨ r.imageLast < s.first ∨ r.alternates s = true) : ¬ s.Maps (r.image + (n - r.first)) := by
  intro hs
  obtain ⟨hfirst, hlast⟩ := h.image
  obtain ⟨hlower, hupper, hstep⟩ := h
  obtain ⟨hslower, hsupper, hsstep⟩ := hs
  rcases hapart with hapart | hapart | hapart
  · omega
  · omega
  · simp only [alternates, Bool.and_eq_true, Bool.or_eq_true, Nat.beq_eq] at hapart
    obtain ⟨htwo, hone, hodd⟩ := hapart
    rw [htwo] at hsstep
    rcases hone with hone | hone
    · omega
    · rw [hone] at hstep
      omega

/-- The runs of a table that map code points around the images under `r`. -/
def CaseRun.near (r : CaseRun) (runs : List CaseRun) : List CaseRun :=
  (runs.dropWhile fun s => Nat.blt s.last r.image).takeWhile fun s => Nat.ble s.first r.imageLast

theorem CaseRun.apart_of_near {r : CaseRun} {runs : List CaseRun} (hascending : Ranges.Ascending (runs.map CaseRun.range))
    (h : (r.near runs).all r.alternates = true) :
    ∀ s ∈ runs, s.last < r.image ∨ r.imageLast < s.first ∨ r.alternates s = true := by
  induction runs with
  | nil => exact List.forall_mem_nil _
  | cons t runs ih =>
    by_cases hbefore : t.last < r.image
    · rw [near, List.dropWhile_cons_of_pos (by simpa using hbefore)] at h
      exact List.forall_mem_cons.mpr ⟨.inl hbefore, ih hascending.tail h⟩
    · rw [near, List.dropWhile_cons_of_neg (by simpa using hbefore)] at h
      have hlater : ∀ s ∈ t :: runs, r.imageLast < s.first ∨ r.alternates s = true := by
        generalize t :: runs = runs at hascending h
        induction runs with
        | nil => exact List.forall_mem_nil _
        | cons t runs ih =>
          by_cases hreached : t.first ≤ r.imageLast
          · rw [List.takeWhile_cons_of_pos (by simpa using hreached), List.all_cons, Bool.and_eq_true] at h
            exact List.forall_mem_cons.mpr ⟨.inr h.1, ih hascending.tail h.2⟩
          · refine List.forall_mem_cons.mpr ⟨.inl (by omega), fun s hs => .inl ?_⟩
            have hle : t.first ≤ s.first := hascending.le (List.mem_map_of_mem hs)
            omega
      exact fun s hs => .inr (hlater s hs)

/-! ## What the tables say -/

/-- The blanks. -/
def blankRanges : Ranges :=
  [(0x9, 0xD), (0x20, 0x20), (0x85, 0x85), (0xA0, 0xA0), (0x1680, 0x1680), (0x2000, 0x200A), (0x2028, 0x2029), (0x202F, 0x202F),
    (0x205F, 0x205F), (0x3000, 0x3000)]

theorem exists_of_isBlank {c : Char} (h : isBlank c = true) : ∃ r ∈ blankRanges, r.1 ≤ c.toNat ∧ c.toNat ≤ r.2 := by
  simp only [isBlank, Bool.or_eq_true, Bool.and_eq_true, beq_iff_eq, decide_eq_true_eq] at h
  simp only [blankRanges, List.exists_mem_cons_iff, List.not_mem_nil, false_and, exists_false, or_false]
  omega

theorem tables_ascending : ∀ ranges ∈ [letterRanges, otherAlphabetic, numberRanges, casedRanges, caseIgnorableRanges, sourceRanges,
    blankRanges], ranges.Ascending := by
  decide +kernel

/-- No table but that of the blanks has a blank. -/
theorem tables_miss_blanks : ∀ ranges ∈ [letterRanges, otherAlphabetic, numberRanges, casedRanges, caseIgnorableRanges,
    sourceRanges], blankRanges.all fun r => ranges.misses r.1 r.2 := by
  decide +kernel

/-- The images under a run are characters, no blanks, and no capitals. -/
theorem lowerRuns_image : (lowerRuns.all fun r =>
    (Nat.blt r.imageLast 0xD800 || (Nat.blt 0xDFFF r.image && Nat.blt r.imageLast 0x110000)) &&
      (blankRanges.misses r.image r.imageLast && ((Nat.blt r.imageLast 0x130 || Nat.blt 0x130 r.image) &&
        (r.near lowerRuns).all r.alternates))) = true := by
  decide +kernel

/-- What an image under the lowercase map is. -/
structure Image (d : Char) : Prop where
  special : d ≠ 'İ'
  unmapped : caseImage lowerRuns d.toNat = none
  visible : isBlank d = false

theorem toNat_ofNat {n : Nat} (h : n.isValidChar) : (Char.ofNat n).toNat = n := by
  rw [Char.ofNat, dif_pos h]
  exact UInt32.toNat_ofNatLT ..

theorem image_of_caseImage {n m : Nat} (h : caseImage lowerRuns n = some m) : m.isValidChar ∧ Image (.ofNat m) := by
  obtain ⟨r, hr, hmaps, rfl⟩ := exists_of_caseImage h
  have himage := List.all_eq_true.mp lowerRuns_image r hr
  simp only [Bool.and_eq_true, Bool.or_eq_true, Nat.blt_eq] at himage
  obtain ⟨hvalid, hblank, hspecial, hnear⟩ := himage
  obtain ⟨hfirst, hlast⟩ := hmaps.image
  have hchar : (r.image + (n - r.first)).isValidChar := by
    rcases hvalid with hvalid | ⟨habove, hbelow⟩
    · exact .inl (by omega)
    · exact .inr ⟨by omega, by omega⟩
  refine ⟨hchar, fun heq => ?_, ?_, ?_⟩
  · have hcode : r.image + (n - r.first) = 0x130 := by rw [← toNat_ofNat hchar, heq]; rfl
    omega
  · rw [toNat_ofNat hchar]
    cases hagain : caseImage lowerRuns (r.image + (n - r.first)) with
    | none => rfl
    | some m =>
      obtain ⟨s, hs, hsmaps, -⟩ := exists_of_caseImage hagain
      exact absurd hsmaps (hmaps.not_maps (CaseRun.apart_of_near (tables_ascending sourceRanges (by simp)) hnear s hs))
  · rw [Bool.eq_false_iff]
    intro hisBlank
    obtain ⟨range, hrange, hn⟩ := exists_of_isBlank hisBlank
    rw [toNat_ofNat hchar] at hn
    have := Ranges.apart_of_misses (tables_ascending blankRanges (by simp)) hblank range hrange
    omega

/-- A blank is in no table but its own. -/
theorem covers_of_isBlank {c : Char} (h : isBlank c = true) {ranges : Ranges} (hranges : ranges ∈
    [letterRanges, otherAlphabetic, numberRanges, casedRanges, caseIgnorableRanges, sourceRanges]) :
    ranges.covers c.toNat = false := by
  obtain ⟨r, hr, hn⟩ := exists_of_isBlank h
  have hascending : ranges.Ascending := tables_ascending ranges (by simp at hranges ⊢; tauto)
  exact Ranges.covers_of_misses hascending (List.all_eq_true.mp (tables_miss_blanks ranges hranges) r hr) hn

/-- The lowercase of one character: itself, or images. -/
theorem lowerChar_cases (c : Char) : lowerChar c = [c] ∨ (c = 'İ' ∧ lowerChar c = ['i', '\u0307']) ∨
    ∃ m, caseImage lowerRuns c.toNat = some m ∧ lowerChar c = [.ofNat m] := by
  rw [lowerChar]
  split
  · rename_i hc
    exact .inr (.inl ⟨hc, rfl⟩)
  · cases caseImage lowerRuns c.toNat with
    | none => exact .inl rfl
    | some m => exact .inr (.inr ⟨m, rfl, rfl⟩)

theorem lowerChar_of_image {d : Char} (h : Image d) : lowerChar d = [d] := by
  rw [lowerChar, if_neg h.special, h.unmapped]

theorem image_dotted : Image 'i' ∧ Image '\u0307' :=
  ⟨⟨by decide, rfl, by decide⟩, ⟨by decide, rfl, by decide⟩⟩

theorem lowerChar_ne_nil (c : Char) : lowerChar c ≠ [] := by
  rcases lowerChar_cases c with h | ⟨-, h⟩ | ⟨m, -, h⟩ <;> rw [h] <;> exact List.cons_ne_nil _ _

/-- A lowercase character is its own lowercase. -/
theorem lowerChar_of_mem {c d : Char} (h : d ∈ lowerChar c) : lowerChar d = [d] := by
  rcases lowerChar_cases c with hc | ⟨-, hc⟩ | ⟨m, hm, hc⟩
  · rw [hc, List.mem_singleton] at h
    rw [h, hc]
  · simp only [hc, List.mem_cons, List.not_mem_nil, or_false] at h
    rcases h with rfl | rfl
    · exact lowerChar_of_image image_dotted.1
    · exact lowerChar_of_image image_dotted.2
  · rw [hc, List.mem_singleton] at h
    rw [h]
    exact lowerChar_of_image (image_of_caseImage hm).2

theorem lowerChar_of_isBlank {c : Char} (h : isBlank c = true) : lowerChar c = [c] := by
  rcases lowerChar_cases c with hsame | ⟨rfl, -⟩ | ⟨m, hm, -⟩
  · exact hsame
  · exact absurd h (by decide)
  · obtain ⟨r, hr, hmaps, -⟩ := exists_of_caseImage hm
    have hsource : r.range ∈ sourceRanges := List.mem_map_of_mem hr
    have hcovers := Ranges.covers_of_mem (tables_ascending sourceRanges (by simp)) hsource ⟨hmaps.lower, hmaps.upper⟩
    cases hcovers.symm.trans (covers_of_isBlank h (by simp))

theorem isBlank_of_mem_lowerChar {c d : Char} (h : d ∈ lowerChar c) (hc : isBlank c = false) : isBlank d = false := by
  rcases lowerChar_cases c with hlower | ⟨-, hlower⟩ | ⟨m, hm, hlower⟩
  · rw [hlower, List.mem_singleton] at h
    rwa [h]
  · simp only [hlower, List.mem_cons, List.not_mem_nil, or_false] at h
    rcases h with rfl | rfl
    · exact image_dotted.1.visible
    · exact image_dotted.2.visible
  · rw [hlower, List.mem_singleton] at h
    rw [h]
    exact (image_of_caseImage hm).2.visible

/-! ## Letters and numbers -/

/-- What the standard punctuation leaves of a word. -/
def isTextual (c : Char) : Bool := isLetter c || isNumber c

theorem isAlphanumeric_of_isTextual {c : Char} (h : isTextual c = true) : isAlphanumeric c = true := by
  rw [isTextual, Bool.or_eq_true] at h
  rw [isAlphanumeric, isAlphabetic, Bool.or_eq_true, Bool.or_eq_true]
  exact h.imp_left .inl

theorem isAlphanumeric_of_isBlank {c : Char} (h : isBlank c = true) : isAlphanumeric c = false := by
  have hletter : isLetter c = false := covers_of_isBlank h (by simp)
  have hother : otherAlphabetic.holds c = false := covers_of_isBlank h (by simp)
  have hnumber : isNumber c = false := covers_of_isBlank h (by simp)
  rw [isAlphanumeric, isAlphabetic, hletter, hother, hnumber]
  rfl

/-- The runs that no range of letters has whole. -/
def oddRuns : List CaseRun := [⟨0x1F59, 0x1F5F, 2, 0x1F51⟩, ⟨0x2160, 0x216F, 1, 0x2170⟩, ⟨0x24B6, 0x24CF, 1, 0x24D0⟩]

/-- Without the runs at the beginning that lie in the range. -/
def dropWithin (runs : List CaseRun) (r : Nat × Nat) : List CaseRun :=
  runs.dropWhile fun run => Nat.ble r.1 run.first && Nat.ble run.last r.2

theorem exists_of_dropWithin {runs : List CaseRun} {ranges : Ranges} {run : CaseRun} (hrun : run ∈ runs)
    (h : ranges.foldl dropWithin runs = []) : ∃ r ∈ ranges, r.1 ≤ run.first ∧ run.last ≤ r.2 := by
  induction ranges generalizing runs with
  | nil =>
    rw [List.foldl_nil] at h
    rw [h] at hrun
    cases hrun
  | cons r ranges ih =>
    rw [List.foldl_cons] at h
    rw [← List.takeWhile_append_dropWhile (p := fun run => Nat.ble r.1 run.first && Nat.ble run.last r.2) (l := runs),
      List.mem_append] at hrun
    rcases hrun with hrun | hrun
    · have hwithin := List.mem_takeWhile_imp hrun
      rw [Bool.and_eq_true, Nat.ble_eq, Nat.ble_eq] at hwithin
      exact ⟨r, List.mem_cons_self, hwithin⟩
    · obtain ⟨r, hr, hwithin⟩ := ih hrun h
      exact ⟨r, List.mem_cons_of_mem _ hr, hwithin⟩

/-- The other runs lie in ranges of letters. Of the odd ones the first maps letters only, the second numbers, and the
images under the third are neither. -/
theorem letters_of_runs : letterRanges.foldl dropWithin (lowerRuns.filter (!oddRuns.contains ·)) = [] ∧
    (∀ n ∈ [0x1F59, 0x1F5B, 0x1F5D, 0x1F5F], letterRanges.covers n = true) ∧
    (∃ r ∈ numberRanges, r.1 ≤ 0x2160 ∧ 0x216F ≤ r.2) ∧
    letterRanges.misses 0x24D0 0x24E9 = true ∧ numberRanges.misses 0x24D0 0x24E9 = true := by
  decide +kernel

/-- A capital is a letter or a number, or a circled letter. -/
theorem textual_of_maps {run : CaseRun} {n : Nat} (hrun : run ∈ lowerRuns) (hmaps : run.Maps n) :
    letterRanges.covers n = true ∨ numberRanges.covers n = true ∨ run = ⟨0x24B6, 0x24CF, 1, 0x24D0⟩ := by
  obtain ⟨hlower, hupper, hstep⟩ := hmaps
  obtain ⟨hwithin, hgaps, ⟨r, hr, hfirst, hlast⟩, -⟩ := letters_of_runs
  by_cases hodd : run ∈ oddRuns
  · simp only [oddRuns, List.mem_cons, List.not_mem_nil, or_false] at hodd
    rcases hodd with rfl | rfl | rfl
    · refine .inl (hgaps n ?_)
      simp only [List.mem_cons, List.not_mem_nil, or_false]
      simp only at hlower hupper hstep
      omega
    · exact .inr (.inl (Ranges.covers_of_mem (tables_ascending numberRanges (by simp)) hr ⟨hfirst.trans hlower, hupper.trans hlast⟩))
    · exact .inr (.inr rfl)
  · obtain ⟨r, hr, hfirst, hlast⟩ := exists_of_dropWithin (List.mem_filter.mpr ⟨hrun, by simpa using hodd⟩) hwithin
    exact .inl (Ranges.covers_of_mem (tables_ascending letterRanges (by simp)) hr ⟨hfirst.trans hlower, hupper.trans hlast⟩)

/-- Lowering makes no letters and no numbers. -/
theorem isTextual_of_mem_lowerChar {c d : Char} (h : d ∈ lowerChar c) (hc : isTextual c = false) : isTextual d = false := by
  rcases lowerChar_cases c with hlower | ⟨rfl, -⟩ | ⟨m, hm, hlower⟩
  · rw [hlower, List.mem_singleton] at h
    rwa [h]
  · have hletter : isTextual 'İ' = true := rfl
    cases hletter.symm.trans hc
  · rw [hlower, List.mem_singleton] at h
    obtain ⟨hvalid, -⟩ := image_of_caseImage hm
    obtain ⟨run, hrun, hmaps, rfl⟩ := exists_of_caseImage hm
    simp only [isTextual, isLetter, isNumber, Ranges.holds, Bool.or_eq_false_iff] at hc ⊢
    rcases textual_of_maps hrun hmaps with hletter | hnumber | rfl
    · cases hletter.symm.trans hc.1
    · cases hnumber.symm.trans hc.2
    · obtain ⟨-, -, -, hnoLetter, hnoNumber⟩ := letters_of_runs
      have hcode : 0x24D0 ≤ d.toNat ∧ d.toNat ≤ 0x24E9 := by
        rw [h, toNat_ofNat hvalid]
        exact hmaps.image
      exact ⟨Ranges.covers_of_misses (tables_ascending letterRanges (by simp)) hnoLetter hcode,
        Ranges.covers_of_misses (tables_ascending numberRanges (by simp)) hnoNumber hcode⟩

end Repartee.Unicode

namespace Repartee.Text

open Unicode

variable {c : Char} {before blanks w rest cs ds : List Char}

/-! ## Texts -/

theorem lowerAt_ne_nil (before : List Char) (c : Char) (after : List Char) : lowerAt before c after ≠ [] := by
  rw [lowerAt]
  split
  · exact List.cons_ne_nil _ _
  · exact lowerChar_ne_nil c

/-- Around a capital sigma as elsewhere the lowercase is that of characters. -/
theorem mem_lowerAt {d : Char} {after : List Char} (h : d ∈ lowerAt before c after) :
    d ∈ lowerChar c ∨ c = 'Σ' ∧ (d = 'ς' ∨ d = 'σ') := by
  rw [lowerAt] at h
  split at h
  · rename_i hc
    rw [List.mem_singleton] at h
    refine .inr ⟨hc, ?_⟩
    rw [h]
    split
    · exact .inl rfl
    · exact .inr rfl
  · exact .inl h

theorem mem_lowerAfter {d : Char} (h : d ∈ lowerAfter before cs) :
    ∃ c ∈ cs, d ∈ lowerChar c ∨ c = 'Σ' ∧ (d = 'ς' ∨ d = 'σ') := by
  induction cs generalizing before with
  | nil => cases h
  | cons c cs ih =>
    rw [lowerAfter, List.mem_append] at h
    rcases h with h | h
    · exact ⟨c, List.mem_cons_self, mem_lowerAt h⟩
    · obtain ⟨c, hc, hd⟩ := ih h
      exact ⟨c, List.mem_cons_of_mem _ hc, hd⟩

theorem lowerChar_of_mem_lower {d : Char} (h : d ∈ lower cs) : lowerChar d = [d] := by
  obtain ⟨c, -, hd | ⟨-, rfl | rfl⟩⟩ := mem_lowerAfter h
  · exact lowerChar_of_mem hd
  · rfl
  · rfl

/-- No character of such a text is changed. -/
theorem lower_of_forall (h : ∀ c ∈ cs, lowerChar c = [c]) : lower cs = cs := by
  have hlower : ∀ before, lowerAfter before cs = cs := by
    induction cs with
    | nil => exact fun _ => rfl
    | cons c cs ih =>
      intro before
      obtain ⟨hc, hcs⟩ := List.forall_mem_cons.mp h
      have hsigma : c ≠ 'Σ' := by
        rintro rfl
        have hsmall : lowerChar 'Σ' = ['σ'] := rfl
        cases hsmall.symm.trans hc
      rw [lowerAfter, ih hcs, lowerAt, if_neg hsigma, hc, List.singleton_append]
  exact hlower []

theorem lower_lower (cs : List Char) : lower (lower cs) = lower cs :=
  lower_of_forall fun _ hd => lowerChar_of_mem_lower hd

/-! ## Words -/

theorem uncased_of_isBlank (h : isBlank c = true) : isCased c = false ∧ isCaseIgnorable c = false := by
  exact ⟨covers_of_isBlank h (by simp), covers_of_isBlank h (by simp)⟩

/-- No cased character is met beyond a blank. -/
theorem meetsCased_append (cs : List Char) (hds : ∀ c ∈ ds.head?, isBlank c = true) : meetsCased (cs ++ ds) = meetsCased cs := by
  rw [meetsCased, meetsCased, List.dropWhile_append]
  cases cs.dropWhile isCaseIgnorable with
  | cons c rest => rfl
  | nil =>
    cases ds with
    | nil => rfl
    | cons b ds =>
      obtain ⟨hcased, hignorable⟩ := uncased_of_isBlank (hds b rfl)
      rw [List.isEmpty_nil, if_pos rfl, List.dropWhile_cons_of_neg (by simp [hignorable])]
      exact hcased

theorem lowerAt_of_isBlank (hc : isBlank c = true) (before after : List Char) : lowerAt before c after = [c] := by
  have hsigma : c ≠ 'Σ' := by
    rintro rfl
    exact absurd hc (by decide)
  rw [lowerAt, if_neg hsigma, lowerChar_of_isBlank hc]

theorem lowerAfter_append (hds : ∀ c ∈ ds.head?, isBlank c = true) (before cs : List Char) :
    lowerAfter before (cs ++ ds) = lowerAfter before cs ++ lowerAfter (cs.reverse ++ before) ds := by
  induction cs generalizing before with
  | nil => rfl
  | cons c cs ih =>
    rw [List.cons_append, lowerAfter, lowerAfter, ih, lowerAt, meetsCased_append cs hds, ← lowerAt, List.append_assoc,
      List.reverse_cons, List.append_assoc, List.singleton_append]

theorem lowerAfter_of_blank (hds : ∀ c ∈ ds.head?, isBlank c = true) (before cs : List Char) :
    lowerAfter (before ++ ds) cs = lowerAfter before cs := by
  induction cs generalizing before with
  | nil => rfl
  | cons c cs ih => rw [lowerAfter, lowerAfter, ← List.cons_append, ih, lowerAt, meetsCased_append before hds, ← lowerAt]

theorem lower_cons_blank (hc : isBlank c = true) (cs : List Char) : lower (c :: cs) = c :: lower cs := by
  rw [lower, lowerAfter, lowerAt_of_isBlank hc, List.singleton_append]
  have hone : ∀ d ∈ [c].head?, isBlank d = true := by simpa using hc
  exact congrArg _ (lowerAfter_of_blank hone [] cs)

theorem lower_blanks_append (h : ∀ c ∈ blanks, isBlank c = true) (cs : List Char) : lower (blanks ++ cs) = blanks ++ lower cs := by
  induction blanks with
  | nil => rfl
  | cons c blanks ih =>
    obtain ⟨hc, hblanks⟩ := List.forall_mem_cons.mp h
    rw [List.cons_append, lower_cons_blank hc, ih hblanks, List.cons_append]

theorem lower_append (hds : ∀ c ∈ ds.head?, isBlank c = true) (cs : List Char) : lower (cs ++ ds) = lower cs ++ lower ds := by
  rw [lower, lowerAfter_append hds, List.append_nil]
  cases ds with
  | nil => rfl
  | cons b ds =>
    have hb := hds b rfl
    rw [lower_cons_blank hb, lowerAfter, lowerAt_of_isBlank hb, List.singleton_append]
    have hlast : ∀ c ∈ (b :: cs.reverse).head?, isBlank c = true := by simpa using hb
    exact congrArg (fun l => lower cs ++ b :: l) (lowerAfter_of_blank hlast [] ds)

theorem isBlank_of_mem_lower {d : Char} (hcs : ∀ c ∈ cs, isBlank c = false) (h : d ∈ lower cs) : isBlank d = false := by
  obtain ⟨c, hc, hd | ⟨-, rfl | rfl⟩⟩ := mem_lowerAfter h
  · exact isBlank_of_mem_lowerChar hd (hcs c hc)
  · decide
  · decide

theorem lower_ne_nil (h : cs ≠ []) : lower cs ≠ [] := by
  obtain ⟨c, cs, rfl⟩ := List.exists_cons_of_ne_nil h
  exact List.append_ne_nil_of_left_ne_nil (lowerAt_ne_nil [] c cs) _

theorem words_lower (cs : List Char) : words (lower cs) = (words cs).map lower := by
  induction cs using words_induction with
  | blank blanks hblanks =>
    rw [← List.append_nil blanks, lower_blanks_append hblanks, words_blanks_append hblanks, words_blanks_append hblanks]
    rfl
  | word blanks w rest hblanks hne hw hrest ih =>
    have hlater : ∀ c ∈ (lower rest).head?, isBlank c = true := by
      cases rest with
      | nil => exact nofun
      | cons b rest =>
        rw [lower_cons_blank (hrest b rfl)]
        exact hrest
    rw [lower_blanks_append hblanks, lower_append hrest, words_word hblanks (lower_ne_nil hne)
      (fun c hc => isBlank_of_mem_lower hw hc) hlater, words_word hblanks hne hw hrest, ih, List.map_cons]

/-- Lowering makes no letters and no numbers of a text without. -/
theorem isTextual_of_mem_lower {d : Char} (hcs : ∀ c ∈ cs, isTextual c = false) (h : d ∈ lower cs) : isTextual d = false := by
  obtain ⟨c, hc, hd | ⟨rfl, -⟩⟩ := mem_lowerAfter h
  · exact isTextual_of_mem_lowerChar hd (hcs c hc)
  · have hletter : isTextual 'Σ' = true := rfl
    cases hletter.symm.trans (hcs _ hc)

end Repartee.Text
