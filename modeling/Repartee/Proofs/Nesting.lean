/-
  Repartee.Proofs.Nesting — what stands inside a call or the braces of a redirect.

  A block passes over the blocks of its own name inside it. A call and a redirect do not: each ends at
  the first mark that could end it. So a reply can be put between their marks as it is if it has no such
  mark, and only then.

  Proved:
  - What a text is read to does not depend on the reply that faults quote (`readPieces_ok`).
  - A text of which no piece is left is made of weight tags (`weightsOnly_of_readPieces`).
  - Which replies a call and a redirect hold as they are (`read_held`).
-/

import Mathlib.Data.List.Infix
import Repartee.Proofs.Cutting
import Repartee.Proofs.Printing

namespace Repartee.Template

open Text
open Unicode (isBlank)

/-- No brace closes before one was opened for it, and all that are opened are closed. -/
def BracesPaired (cs : List Char) : Prop :=
  (∀ p ∈ cs.inits, p.count '}' ≤ p.count '{') ∧ cs.count '{' = cs.count '}'

instance (cs : List Char) : Decidable (BracesPaired cs) := inferInstanceAs (Decidable (_ ∧ _))

def called (b : String) : String := "<call>" ++ b ++ "</call>"

def redirected (b : String) : String := "\x7b@" ++ b ++ "\x7d"

/-! ## Texts of which nothing is left -/

inductive WeightsOnly : List Char → Prop
  | nil : WeightsOnly []
  | tag {value rest : List Char} : '{' ∉ value → '}' ∉ value → WeightsOnly rest →
      WeightsOnly ("\x7bweight=".toList ++ (value ++ '}' :: rest))

theorem WeightsOnly.count_eq {cs : List Char} (h : WeightsOnly cs) : cs.count '{' = cs.count '}' := by
  induction h with
  | nil => rfl
  | @tag value rest hopen hclose _ ih =>
    have hstart : "\x7bweight=".toList.count '{' = 1 ∧ "\x7bweight=".toList.count '}' = 0 := by decide +kernel
    rw [List.count_append, List.count_append, List.count_append, List.count_append, hstart.1, hstart.2,
      List.count_eq_zero.mpr hopen, List.count_eq_zero.mpr hclose, List.count_cons_of_ne (by decide), List.count_cons_self, ih]
    omega

theorem WeightsOnly.getLast?_eq {cs : List Char} (h : WeightsOnly cs) (hne : cs ≠ []) : cs.getLast? = some '}' := by
  induction h with
  | nil => exact absurd rfl hne
  | @tag value rest _ _ _ ih =>
    rw [← List.append_assoc, List.getLast?_append_of_ne_nil _ (List.cons_ne_nil _ _)]
    cases rest with
    | nil => rfl
    | cons c rest =>
      rw [List.getLast?_cons_cons]
      exact ih (List.cons_ne_nil _ _)

theorem blockTag?_ne_weight {name : String} {tag : List Char → Tag} {what : Unclosed} {cs value after : List Char}
    (htag : ∀ body, tag body ≠ .weight value) : blockTag? name tag what cs ≠ some (.weight value, after) := by
  intro h
  rw [blockTag?] at h
  split at h
  · cases h
  · split at h
    · exact htag _ (congrArg Prod.fst (Option.some.inj h))
    · cases h

theorem namedTag?_ne_weight {name args value : List Char} : namedTag? name args ≠ some (.weight value) := by
  intro h
  have hwriting : ∀ {word : String} {tag : String → List Char → Tag}, writing? word = some tag →
      ∀ var cs, tag var cs ≠ .weight value := by
    intro word tag htag var cs heq
    simp only [writing?] at htag
    repeat' split at htag
    all_goals cases htag
    all_goals cases heq
  simp only [namedTag?] at h
  split at h
  · cases h
  · split at h
    · cases h
    · split at h
      · split at h <;> cases h
      · rename_i htag
        split at h
        · split at h
          · exact hwriting htag _ _ (Option.some.inj h)
          · cases h
        · cases h
      · split at h <;> cases h
      · obtain ⟨_, -, h⟩ := Option.map_eq_some_iff.mp h
        cases h

theorem exists_of_weightTag? {cs after : List Char} {tag : Tag} (h : weightTag? cs = some (tag, after)) :
    ∃ inside, '}' ∉ inside ∧ tag = .weight (trim inside) ∧ cs = "\x7bweight=".toList ++ (inside ++ '}' :: after) := by
  simp only [weightTag?, bracedAfter?, Option.map_eq_some_iff, Option.join_eq_some_iff] at h
  obtain ⟨found, ⟨_, hafter, hcut⟩, heq⟩ := h
  cases heq
  obtain ⟨d, hd, hinside, rfl⟩ := cutOnce_eq_some_iff.mp hcut
  rw [beq_iff_eq] at hd
  subst hd
  refine ⟨_, fun hmem => ?_, rfl, after?_eq_some_iff.mp hafter⟩
  simpa using hinside _ hmem

theorem callTag?_ne_weight {cs value after : List Char} : callTag? cs ≠ some (.weight value, after) := by
  intro h
  simp only [callTag?, Option.map_eq_some_iff] at h
  obtain ⟨_, -, h⟩ := h
  split at h
  all_goals cases h

theorem pairedTag?_ne_weight {cs value after : List Char} : pairedTag? cs ≠ some (.weight value, after) := by
  intro h
  rw [pairedTag?] at h
  split at h
  · cases h
  · obtain ⟨_, hnamed, h⟩ := Option.map_eq_some_iff.mp h
    cases h
    exact namedTag?_ne_weight hnamed

/-- Only a weight tag in braces is a weight. -/
theorem exists_of_tag?_weight {cs value after : List Char} (h : tag? cs = some (.weight value, after)) :
    ∃ inside, '}' ∉ inside ∧ value = trim inside ∧ cs = "\x7bweight=".toList ++ (inside ++ '}' :: after) := by
  cases cs with
  | nil => cases h
  | cons c cs =>
    rw [tag?] at h
    split at h
    · simp only [braceTag?, Option.orElse_eq_orElse, Option.orElse_eq_or, Option.or_eq_some_iff] at h
      rcases h with h | ⟨-, h | ⟨-, h | ⟨-, h | ⟨-, h⟩⟩⟩⟩
      · obtain ⟨inside, hclose, heq, hcs⟩ := exists_of_weightTag? h
        exact ⟨inside, hclose, Tag.weight.inj heq, hcs⟩
      · exact absurd h (blockTag?_ne_weight fun _ => by simp)
      · simp only [redirectTag?, Option.map_eq_some_iff] at h
        obtain ⟨_ | found, -, h⟩ := h <;> cases h
      · simp only [topicTag?, Option.map_eq_some_iff] at h
        obtain ⟨_, -, h⟩ := h
        cases h
      · obtain ⟨_, -, h⟩ := List.exists_of_findSome?_eq_some h
        exact absurd h (blockTag?_ne_weight fun _ => by simp)
    · split at h
      · simp only [Option.orElse_eq_orElse, Option.orElse_eq_or, Option.or_eq_some_iff] at h
        rcases h with h | ⟨-, h⟩
        · exact absurd h callTag?_ne_weight
        · exact absurd h pairedTag?_ne_weight
      · cases h

section Reading

variable {whole whole' : String} {run cs : List Char}

theorem readPieces_ok {found : List Piece × Option Nat} (h : readPieces whole run cs = .ok found) (whole' : String) :
    readPieces whole' run cs = .ok found := by
  have hsame : SameOutcome (Padded []) (readPieces whole run cs) (readPieces whole' run cs) :=
    readPieces_alike (List.forall_mem_nil _) (.refl cs false)
  rw [h] at hsame
  generalize readPieces whole' run cs = outcome at hsame
  cases hsame with
  | ok hpadded => rw [hpadded.eq]

/-- Every tag but a weight leaves a piece. -/
theorem eq_weight_of_meaning {t : Tag} {weight : Option Nat} (h : t.meaning whole = .ok (none, weight)) :
    ∃ value, t = .weight value := by
  cases t with
  | weight value => exact ⟨value, rfl⟩
  | unclosed what => cases h
  | piece p => cases h
  | _ =>
    obtain ⟨_, -, h⟩ := bind_eq_ok.mp h
    cases h

theorem not_mem_of_weight {inside : List Char} {found : Option Piece × Option Nat}
    (h : (Tag.weight (trim inside)).meaning whole = .ok found) : '{' ∉ inside := by
  intro hmem
  obtain ⟨before, after, hbefore, hafter, hinside⟩ := exists_trim inside
  have htrim : '{' ∈ trim inside := by
    rw [hinside, List.mem_append, List.mem_append] at hmem
    rcases hmem with hmem | hmem | hmem
    · cases hbefore _ hmem
    · exact hmem
    · cases hafter _ hmem
  rw [Tag.meaning, natural_of_mem htrim (.inr rfl)] at h
  cases h

/-- What waits in `run` becomes a piece. -/
theorem run_eq_nil {weight : Option Nat} (h : readPieces whole run cs = .ok ([], weight)) : run = [] := by
  cases runsInto_readPieces whole cs with
  | error e he => cases h.symm.trans (he run)
  | ok first back later hok =>
    cases run with
    | nil => rfl
    | cons c run =>
      have hpieces := congrArg Prod.fst (Except.ok.inj (h.symm.trans (hok (c :: run))))
      cases first <;> cases hpieces

theorem weightsOnly_of_readPieces {weight : Option Nat} (h : readPieces whole [] cs = .ok ([], weight)) : WeightsOnly cs := by
  induction hn : cs.length using Nat.strongRecOn generalizing cs weight with
  | _ n ih =>
    subst hn
    cases cs with
    | nil => exact .nil
    | cons c rest =>
      cases he : escape? (c :: rest) with
      | some found =>
        rw [readPieces_of_escape he] at h
        cases run_eq_nil h
      | none =>
        cases ht : tag? (c :: rest) with
        | none =>
          rw [readPieces_of_plain he ht] at h
          cases run_eq_nil h
        | some found =>
          obtain ⟨tag, after⟩ := found
          rw [readPieces_of_tag he ht, bind_eq_ok] at h
          obtain ⟨⟨piece, w⟩, hmeaning, h⟩ := h
          cases piece with
          | some p =>
            obtain ⟨_, -, h⟩ := bind_eq_ok.mp h
            have hpieces := congrArg Prod.fst (Except.ok.inj h)
            cases hpieces
          | none =>
            obtain ⟨⟨pieces, later⟩, hafter, h⟩ := bind_eq_ok.mp h
            cases h
            have hrest := ih _ (shorter_tag? ht).1 hafter rfl
            obtain ⟨value, rfl⟩ := eq_weight_of_meaning hmeaning
            obtain ⟨inside, hclose, rfl, hcs⟩ := exists_of_tag?_weight ht
            rw [hcs]
            exact .tag (not_mem_of_weight hmeaning) hclose hrest

/-! ## Calls and redirects -/

theorem tag?_cut_call {inside line rest : List Char} (h : cutAt callClosing inside = some (line, rest)) :
    tag? (callOpening ++ inside) = some (.call (trim line), rest) := by
  have hcall : callTag? (callOpening ++ inside) = some (.call (trim line), rest) := by
    rw [callTag?_eq, after?_append, Option.map_some, h]
  change (callTag? (callOpening ++ inside) <|> _) = _
  rw [hcall]
  rfl

/-- A tag that is one piece with what follows it is followed by weights. -/
theorem weightsOnly_of_piece {t : Tag} {p : Piece} {after : List Char} {weight : Option Nat}
    (h : tag? cs = some (t, after)) (ht : ∀ value, t ≠ .weight value)
    (hread : readPieces whole [] cs = .ok ([p], weight)) : WeightsOnly after := by
  rw [readPieces_tag h, bind_eq_ok] at hread
  obtain ⟨⟨piece, w⟩, hmeaning, hread⟩ := hread
  cases piece with
  | none =>
    obtain ⟨value, hvalue⟩ := eq_weight_of_meaning hmeaning
    exact absurd hvalue (ht value)
  | some q =>
    obtain ⟨⟨pieces, later⟩, hafter, hread⟩ := bind_eq_ok.mp hread
    cases hread
    exact weightsOnly_of_readPieces hafter

end Reading

/-! ## Replies -/

/-- The reply is the one piece `p` and has no weight. -/
def Single (source : String) (p : Piece) : Prop := read source = .ok { source, pieces := [p], weight := 0 }

section Replies

variable {b : String} {t : Template}

theorem exists_readPieces (h : read b = .ok t) (whole : String) :
    ∃ weight, readPieces whole [] b.toList = .ok (t.pieces, weight) := by
  obtain ⟨⟨pieces, weight⟩, hread, h⟩ := bind_eq_ok.mp h
  cases h
  exact ⟨weight, readPieces_ok hread whole⟩

/-- A text that is all one tag is what the tag means. -/
theorem single_iff_meaning {source : String} {tag : Tag} {p : Piece} (h : tag? source.toList = some (tag, [])) :
    Single source p ↔ ∃ weight, tag.meaning source = .ok (some p, weight) := by
  have hnil : readPieces source [] [] = .ok ([], none) := by
    rw [readPieces]
    rfl
  rw [Single, read, readPieces_tag h]
  cases tag.meaning source with
  | error e =>
    refine iff_of_false (fun h => by cases h) ?_
    rintro ⟨_, ⟨⟩⟩
  | ok meaning =>
    obtain ⟨q | q, weight⟩ := meaning
    · change (readPieces source [] [] >>= _) >>= _ = _ ↔ _
      rw [hnil]
      refine iff_of_false (fun h => by cases h) ?_
      rintro ⟨_, ⟨⟩⟩
    · change (readPieces source [] [] >>= _) >>= _ = _ ↔ _
      rw [hnil]
      constructor
      · intro hread
        cases hread
        exact ⟨_, rfl⟩
      · rintro ⟨_, ⟨⟩⟩
        rfl

theorem toList_called : (called b).toList = callOpening ++ (b.toList ++ callClosing) := by
  rw [called, String.toList_append, String.toList_append, List.append_assoc]
  rfl

theorem toList_redirected : (redirected b).toList = '{' :: '@' :: (b.toList ++ ['}']) := by
  rw [redirected, String.toList_append, String.toList_append, List.append_assoc]
  rfl

theorem single_called_iff (h : read b = .ok t) (htrim : trim b.toList = b.toList) :
    Single (called b) (.call t.pieces) ↔ ¬ callClosing <:+: b.toList := by
  obtain ⟨weight, hread⟩ := exists_readPieces h (called b)
  rw [← cutAt_eq_none_iff]
  cases hcut : cutAt callClosing b.toList with
  | none =>
    have htag : tag? (called b).toList = some (.call (trim b.toList), []) := by
      rw [toList_called]
      exact tag?_cut_call (cutAt_append_of_none hcut fun s hs => by cases hs; decide)
    refine iff_of_true ((single_iff_meaning htag).mpr ⟨none, ?_⟩) rfl
    rw [Tag.meaning, htrim, hread]
    rfl
  | some found =>
    refine iff_of_false (fun hsingle => ?_) nofun
    obtain ⟨line, rest⟩ := found
    have htag : tag? (called b).toList = some (.call (trim line), rest ++ callClosing) := by
      rw [toList_called]
      exact tag?_cut_call (cutAt_append_of_some hcut callClosing)
    obtain ⟨_, hpieces⟩ := exists_readPieces hsingle (called b)
    -- Weights end with a brace, and the text ends with the mark of the call.
    have hweights := weightsOnly_of_piece htag nofun hpieces
    have hlast := hweights.getLast?_eq (List.append_ne_nil_of_right_ne_nil _ (by decide))
    rw [List.getLast?_append_of_ne_nil _ (by decide)] at hlast
    cases hlast

theorem single_redirected (h : read b = .ok t) (htrim : trim b.toList = b.toList) (hfree : '}' ∉ b.toList) :
    Single (redirected b) (.redirect t.pieces) := by
  obtain ⟨weight, hread⟩ := exists_readPieces h (redirected b)
  have htag : tag? (redirected b).toList = some (.redirect (trim b.toList), []) := by
    rw [toList_redirected]
    exact tag?_braced hfree []
  refine (single_iff_meaning htag).mpr ⟨none, ?_⟩
  rw [Tag.meaning, htrim, hread]
  rfl

theorem not_single_redirected {p : Piece} (hpaired : BracesPaired b.toList) (hmem : '}' ∈ b.toList) :
    ¬ Single (redirected b) p := by
  intro hsingle
  obtain ⟨before, rest, hb, hfree⟩ := List.eq_append_cons_of_mem hmem
  have htag : tag? (redirected b).toList = some (.redirect (trim before), rest ++ ['}']) := by
    rw [toList_redirected, hb, List.append_assoc]
    exact tag?_braced hfree _
  obtain ⟨_, hpieces⟩ := exists_readPieces hsingle (redirected b)
  -- In weights each brace has its partner. Before the first closing brace one was opened, so one is missing behind it.
  have hbehind : rest.count '{' = rest.count '}' + 1 := by
    simpa using (weightsOnly_of_piece htag nofun hpieces).count_eq
  have hopened : 0 < before.count '{' := by
    simpa [List.count_eq_zero.mpr hfree] using hpaired.1 (before ++ ['}']) (by simp [hb])
  have hclosed : before.count '{' + rest.count '{' = rest.count '}' + 1 := by
    simpa [hb, List.count_eq_zero.mpr hfree] using hpaired.2
  omega

/-- A call holds a reply as it is exactly if no call ends in it. The braces of a redirect do if no brace closes
in it, and of the replies with paired braces these are the only ones. -/
theorem read_held (h : read b = .ok t) (htrim : trimmed b = b) :
    (Single (called b) (.call t.pieces) ↔ ¬ "</call>".toList <:+: b.toList) ∧
      ('}' ∉ b.toList → Single (redirected b) (.redirect t.pieces)) ∧
      (BracesPaired b.toList → '}' ∈ b.toList → ¬ Single (redirected b) (.redirect t.pieces)) := by
  have hlist : trim b.toList = b.toList := by
    rw [← String.toList_ofList (l := trim b.toList)]
    exact congrArg String.toList htrim
  exact ⟨single_called_iff h hlist, single_redirected h hlist, not_single_redirected⟩

theorem read_of_printPieces {ps : List Piece} (h : wellNested true true ps) (hb : b.toList = printPieces ps) :
    read b = .ok { source := b, pieces := ps, weight := 0 } := by
  rw [read, hb, readPieces_printPieces h]
  rfl

end Replies

theorem read_formal_star : read "\x7bformal\x7d<star 1>\x7b/formal\x7d" = .ok
    { source := "\x7bformal\x7d<star 1>\x7b/formal\x7d", pieces := [.recase .formal [.star 1]], weight := 0 } := by
  have h : wellNested true true [.recase .formal [.star 1]] := by
    simp only [wellNested, Piece.WellNested, Piece.isText, List.head?_nil, Option.any_none, Bool.false_and, true_and, and_true]
    decide +kernel
  exact read_of_printPieces h (by decide +kernel)

theorem read_held_formal_star : ∃ b t, (read b = .ok t ∧ trimmed b = b) ∧ BracesPaired b.toList ∧ '}' ∈ b.toList ∧
    Single (called b) (.call t.pieces) ∧ ¬ Single (redirected b) (.redirect t.pieces) := by
  have htrim : trimmed "\x7bformal\x7d<star 1>\x7b/formal\x7d" = "\x7bformal\x7d<star 1>\x7b/formal\x7d" := by decide +kernel
  have hpaired : BracesPaired "\x7bformal\x7d<star 1>\x7b/formal\x7d".toList := by decide +kernel
  obtain ⟨hcalled, -, hredirected⟩ := read_held read_formal_star htrim
  refine ⟨_, _, ⟨read_formal_star, htrim⟩, hpaired, by decide +kernel, hcalled.mpr ?_, hredirected hpaired (by decide +kernel)⟩
  rw [← cutAt_eq_none_iff]
  decide +kernel

theorem read_call_in_call : read "<call>ask <call>you</call></call>" =
    .error (.unclosed .call "<call>ask <call>you</call></call>") := by
  have htag : tag? "<call>ask <call>you</call></call>".toList = some (.call "ask <call>you".toList, "</call>".toList) := rfl
  have hplain : ∀ c ∈ "ask ".toList, c ≠ '\\' ∧ c ≠ '{' ∧ c ≠ '<' := forall_of_all (by decide +kernel)
  have hunclosed : tag? "<call>you".toList = some (.unclosed .call, []) := rfl
  have hline : ∀ whole, readPieces whole [] "ask <call>you".toList = .error (.unclosed .call whole) := fun whole => by
    change readPieces whole [] ("ask ".toList ++ "<call>you".toList) = _
    rw [readPieces_text hplain, readPieces_tag hunclosed]
    rfl
  rw [read, readPieces_tag htag, Tag.meaning, hline]
  rfl

/-- A text in which no tag begins, at most its first character being a mark of one. -/
theorem readPieces_untagged {whole s : String} {c : Char} {text : List Char} (hs : s.toList = c :: text) (hc : c ≠ '\\')
    (htag : tag? (c :: text) = none) (htext : text.all (fun d => decide (d ≠ '\\' ∧ d ≠ '{' ∧ d ≠ '<')) = true) :
    readPieces whole [] s.toList = .ok ([.text s], none) := by
  rw [hs, readPieces_of_plain (escape?_of_ne hc _) htag, ← List.append_nil text, readPieces_text (forall_of_all htext), readPieces,
    textPiece, List.reverse_append, List.reverse_reverse, List.reverse_singleton, List.singleton_append, ← hs,
    String.ofList_toList]
  simp

theorem read_untagged {s : String} {c : Char} {text : List Char} (hs : s.toList = c :: text) (hc : c ≠ '\\')
    (htag : tag? (c :: text) = none) (htext : text.all (fun d => decide (d ≠ '\\' ∧ d ≠ '{' ∧ d ≠ '<')) = true) :
    read s = .ok { source := s, pieces := [.text s], weight := 0 } := by
  rw [read, readPieces_untagged hs hc htag htext]
  rfl

theorem read_tag_in_redirect : read "\x7b@\x7bformal\x7d<star 1>\x7b/formal\x7d\x7d" = .ok
    { source := "\x7b@\x7bformal\x7d<star 1>\x7b/formal\x7d\x7d"
      pieces := [.redirect [.text "\x7bformal"], .star 1, .text "\x7b/formal\x7d\x7d"]
      weight := 0 } := by
  have htag : tag? "\x7b@\x7bformal\x7d<star 1>\x7b/formal\x7d\x7d".toList =
      some (.redirect "\x7bformal".toList, "<star 1>\x7b/formal\x7d\x7d".toList) := rfl
  have hstar : tag? "<star 1>\x7b/formal\x7d\x7d".toList = some (.piece (.star 1), "\x7b/formal\x7d\x7d".toList) := rfl
  have htarget : ∀ whole, readPieces whole [] "\x7bformal".toList = .ok ([.text "\x7bformal"], none) := fun _ =>
    readPieces_untagged rfl (by decide) rfl (by decide +kernel)
  have hrest : ∀ whole, readPieces whole [] "\x7b/formal\x7d\x7d".toList = .ok ([.text "\x7b/formal\x7d\x7d"], none) := fun _ =>
    readPieces_untagged rfl (by decide) rfl (by decide +kernel)
  rw [read, readPieces_tag htag, Tag.meaning, htarget]
  change (readPieces _ [] "<star 1>\x7b/formal\x7d\x7d".toList >>= _) >>= _ = _
  rw [readPieces_tag hstar, Tag.meaning]
  change ((readPieces _ [] "\x7b/formal\x7d\x7d".toList >>= _) >>= _) >>= _ = _
  rw [hrest]
  rfl

/-- A call in a call leaves it without an end, and a tag in the braces of a redirect is cut in two. -/
theorem held_tags_are_cut :
    (read "ask <call>you</call>" =
        .ok { source := "ask <call>you</call>", pieces := [.text "ask ", .call [.text "you"]], weight := 0 } ∧
      read "<call>ask <call>you</call></call>" = .error (.unclosed .call "<call>ask <call>you</call></call>")) ∧
    (read "\x7bformal\x7d<star 1>\x7b/formal\x7d" = .ok
        { source := "\x7bformal\x7d<star 1>\x7b/formal\x7d", pieces := [.recase .formal [.star 1]], weight := 0 } ∧
      read "\x7b@\x7bformal\x7d<star 1>\x7b/formal\x7d\x7d" = .ok
        { source := "\x7b@\x7bformal\x7d<star 1>\x7b/formal\x7d\x7d"
          pieces := [.redirect [.text "\x7bformal"], .star 1, .text "\x7b/formal\x7d\x7d"]
          weight := 0 }) := by
  have h : wellNested true true [.text "ask ", .call [.text "you"]] := by
    simp only [wellNested, Piece.WellNested, Piece.isText, List.head?_cons, List.head?_nil, Option.any_some,
      Option.any_none, Bool.true_and, Bool.false_and, true_and, and_true]
    decide +kernel
  exact ⟨⟨read_of_printPieces h (by decide +kernel), read_call_in_call⟩, read_formal_star, read_tag_in_redirect⟩

end Repartee.Template
