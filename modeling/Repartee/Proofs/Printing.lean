/-
  Repartee.Proofs.Printing — what is written is read back.

  Reading finds the end of each tag by a search of its own. None of these searches is misled by what
  stands inside a tag, so every tag of a written reply is found with what it holds, and the pieces
  come back by induction over the tree.

  Proved:
  - The tag that a piece is written as is the one at the beginning (`tag?_printed`).
  - Well nested pieces are read back as they are, with the weight that is written behind them
    (`Template.read_printed`).
-/

import Repartee.Proofs.Printing.Trees
import Repartee.Proofs.Respelling.Templates

namespace Repartee

open Text Template
open Unicode (isBlank)

/-! ## Numbers and names -/

/-- Digits that are written are read back. -/
theorem Decimal.natural_toDigits {bound n : Nat} (h : n < bound) : natural bound (Nat.toDigits 10 n) = some n := by
  have hdigit : ∀ c ∈ Nat.toDigits 10 n, c.isDigit = true := fun c hc =>
    Nat.isDigit_of_mem_toDigits (by decide) (by decide) hc
  have hvalue : digitsValue (Nat.toDigits 10 n) = n := Nat.ofDigitChars_eq_foldl.symm.trans Nat.ofDigitChars_ten_toDigits
  revert hdigit hvalue
  cases hds : Nat.toDigits 10 n with
  | nil => exact absurd hds Nat.toDigits_ne_nil
  | cons c ds =>
    intro hdigit hvalue
    have hplus : c ≠ '+' := by
      rintro rfl
      exact absurd (hdigit '+' List.mem_cons_self) (by decide)
    have hall : (c :: ds).any (!·.isDigit) = false := by
      rw [List.any_eq_false]
      intro d hd
      rw [hdigit d hd]
      decide
    rw [natural, List.isEmpty_cons, hall, hvalue, Bool.or_self, if_neg Bool.false_ne_true, if_pos h]
    intro rest heq
    cases heq
    exact hplus rfl

namespace Template

/-! ## Tags in angle brackets -/

section Angled

variable {calls braces : Bool} {word name : String} {args rest : List Char}

theorem mem_angledWords_of_reading? {piece : String → Piece} (h : reading? word = some piece) :
    word ∈ angledWords ∧ word ≠ "@" ∧ word ≠ "id" := by
  simp only [reading?] at h
  repeat' split at h
  all_goals cases h
  all_goals
    rename_i heq
    subst heq
    decide

theorem mem_angledWords_of_writing? {tag : String → List Char → Tag} (h : writing? word = some tag) :
    word ∈ angledWords := by
  simp only [writing?] at h
  repeat' split at h
  all_goals cases h
  all_goals
    rename_i heq
    subst heq
    decide

theorem callTag?_of_ne {c : Char} (h : c ≠ 'c') (cs : List Char) : callTag? ('<' :: c :: cs) = none := by
  have hnone : after? "<call>".toList ('<' :: c :: cs) = none := if_neg h.symm
  rw [callTag?, hnone]
  rfl

theorem tag?_angled {tag : Tag} (hword : word ∈ angledWords) (hargs : Marked false calls braces args)
    (htrim : trim args = args) (htag : namedTag? word.toList args = some tag) (rest : List Char) :
    tag? (angled word args ++ rest) = some (tag, rest) := by
  obtain ⟨hname, hfirst⟩ := angledWord_chars hword
  have hargs : Marked false calls braces ([' '] ++ args) := .append (.plain (by decide)) hargs
  have hmarked : Marked false calls braces (word.toList ++ ' ' :: args) :=
    .append (.of_forall (isPlain_of_isIdentifier hname)) hargs
  have hcut : cutOnce isBlank (word.toList ++ ' ' :: args) = some (word.toList, args) :=
    cutOnce_eq (not_blank_of_isIdentifier hname) (by decide) args
  have hpaired : pairedTag? (word.toList ++ ' ' :: args ++ '>' :: rest) = some (tag, rest) := by
    rw [pairedTag?, hmarked.angleBody?_eq rest]
    simp only [hcut, Option.getD_some, htrim, htag, Option.map_some]
  have hcall : callTag? ('<' :: (word.toList ++ ' ' :: args ++ '>' :: rest)) = none := by
    cases hlist : word.toList with
    | nil => rfl
    | cons c cs =>
      rw [hlist, List.head?_cons] at hfirst
      exact callTag?_of_ne (fun heq => hfirst (congrArg some heq)) _
  have hlist : angled word args ++ rest = '<' :: (word.toList ++ ' ' :: args ++ '>' :: rest) := by
    simp only [angled, List.cons_append, List.append_assoc, List.nil_append]
  rw [hlist, tag?, if_neg (by decide), if_pos rfl, hcall, hpaired]
  rfl

theorem tag?_indexed {piece : Nat → Piece} (h : (word, piece) ∈ indexedNames) {index : Nat}
    (hindex : index < Decimal.bound64) (rest : List Char) :
    tag? (indexed word index ++ rest) = some (.piece (piece index), rest) := by
  have hname := isIdentifier_toDigits index
  have hmarked : Marked false true true (Nat.toDigits 10 index) := .of_forall (isPlain_of_isIdentifier hname)
  have htrim := trim_of_forall (not_blank_of_isIdentifier hname)
  have hread : index? [] (Nat.toDigits 10 index) = some index := by
    rw [index?, List.isEmpty_nil, List.isEmpty_eq_false_iff.mpr Nat.toDigits_ne_nil, Bool.and_false,
      if_neg Bool.false_ne_true, if_pos rfl, Decimal.natural_toDigits hindex]
  have htag : word ∈ angledWords ∧ namedTag? word.toList (Nat.toDigits 10 index) = some (.piece (piece index)) := by
    simp only [indexedNames, List.mem_cons, Prod.mk.injEq, List.not_mem_nil, or_false] at h
    rcases h with ⟨rfl, rfl⟩ | ⟨rfl, rfl⟩ | ⟨rfl, rfl⟩ | ⟨rfl, rfl⟩
    all_goals
      refine ⟨by decide, ?_⟩
      simp [namedTag?, reading?, writing?, recaseNames, List.lookup_cons, indexed?, indexedNames, after?, hread]
  exact tag?_angled htag.1 hmarked htrim htag.2 rest

theorem tag?_named {piece : String → Piece} (h : reading? word = some piece) (hname : isIdentifier name.toList = true)
    (rest : List Char) : tag? (angled word name.toList ++ rest) = some (.piece (piece name), rest) := by
  have hmarked : Marked false true true name.toList := .of_forall (isPlain_of_isIdentifier hname)
  have htrim := trim_of_forall (not_blank_of_isIdentifier hname)
  obtain ⟨hword, hshort, hid⟩ := mem_angledWords_of_reading? h
  have htag : namedTag? word.toList name.toList = some (.piece (piece name)) := by
    rw [namedTag?, String.ofList_toList, if_neg (fun h => hshort h.1), if_neg (fun h => hid h.1), h]
    dsimp only
    rw [if_pos hname, String.ofList_toList]
  exact tag?_angled hword hmarked htrim htag rest

theorem tag?_assigned {tag : String → List Char → Tag} {value : List Char} (h : writing? word = some tag)
    (hname : isIdentifier name.toList = true) (hvalue : Marked false calls braces value) (htrim : trim value = value)
    (rest : List Char) : tag? (assigned word name value ++ rest) = some (tag name value, rest) := by
  have hequals : ∀ c ∈ name.toList, (c == '=') = false := by
    intro c hc
    rw [beq_eq_false_iff_ne]
    rintro rfl
    exact not_mem_of_isIdentifier hname (by decide) hc
  have hmarked : Marked false calls braces (name.toList ++ ['='] ++ value) :=
    .append (.append (.of_forall (isPlain_of_isIdentifier hname)) (.plain (by decide))) hvalue
  have htag : namedTag? word.toList (name.toList ++ '=' :: value) = some (tag name value) := by
    rw [namedTag?_of_writing? (by rwa [String.ofList_toList]), cutOnce_eq hequals rfl, Option.bind_some]
    dsimp only
    rw [trim_of_forall (not_blank_of_isIdentifier hname), if_pos hname, htrim, String.ofList_toList]
  rw [List.append_assoc] at hmarked
  exact tag?_angled (mem_angledWords_of_writing? h) hmarked (trim_assignment hname htrim) htag rest

end Angled

theorem callTag?_eq (cs : List Char) : callTag? cs = (after? callOpening cs).map fun inside =>
    match cutAt callClosing inside with
    | some (line, rest) => (.call (trim line), rest)
    | none => (.unclosed .call, []) := (rfl)

theorem tag?_call {braces : Bool} {line : List Char} (h : Marked false false braces line) (rest : List Char) :
    tag? (callOpening ++ line ++ callClosing ++ rest) = some (.call (trim line), rest) := by
  have hcall : callTag? (callOpening ++ (line ++ (callClosing ++ rest))) = some (.call (trim line), rest) := by
    rw [callTag?_eq, after?_append, Option.map_some, h.cutAt_eq rest]
  rw [List.append_assoc, List.append_assoc]
  change (callTag? (callOpening ++ (line ++ (callClosing ++ rest))) <|> _) = _
  rw [hcall]
  rfl

/-! ## Tags in braces -/

theorem tag?_of_brace {cs : List Char} (h : cs.head? = some '{') : tag? cs = braceTag? cs := by
  obtain ⟨behind, rfl⟩ := List.head?_eq_some_iff.mp h
  rw [tag?, if_pos rfl]

section Blocks

variable {calls : Bool} {name : String} {body : List Char}

theorem blockTag?_eq (hname : name ∈ blockNames) {bars braces : Bool} (hbody : Marked bars calls braces body)
    (tag : List Char → Tag) (what : Unclosed) (rest : List Char) :
    blockTag? name tag what (blocked name body ++ rest) = some (tag body, rest) := by
  rw [blocked, List.append_assoc, List.append_assoc, blockTag?, after?_append]
  dsimp only
  rw [hbody.blockBody?_eq hname rest]

theorem blockTag?_of_ne {name' : String} (hname : name ∈ blockNames) (hname' : name' ∈ blockNames) (hne : name ≠ name')
    (tag : List Char → Tag) (what : Unclosed) (rest : List Char) :
    blockTag? name tag what (blocked name' body ++ rest) = none := by
  have habsent := ((unmarked_block hname hname' hne).1 (body ++ (closingOf name' ++ rest))).1
  rw [openingOf_eq name'] at habsent
  rw [blocked, openingOf_eq name', List.append_assoc, List.append_assoc, List.cons_append, blockTag?, habsent.1]

/-- No other tag in braces begins like a block. -/
theorem otherTags_blocked (hname : name ∈ blockNames) (body rest : List Char) :
    weightTag? (blocked name body ++ rest) = none ∧ redirectTag? (blocked name body ++ rest) = none ∧
      topicTag? (blocked name body ++ rest) = none := by
  simp only [blockNames, recaseNames, List.map_cons, List.map_nil, List.mem_cons, List.not_mem_nil, or_false] at hname
  rcases hname with rfl | rfl | rfl | rfl | rfl
  all_goals exact ⟨rfl, rfl, rfl⟩

theorem tag?_random (hbody : Marked true calls true body) (rest : List Char) :
    tag? (blocked "random" body ++ rest) = some (.random body, rest) := by
  have hname : "random" ∈ blockNames := List.mem_cons_self
  rw [tag?_of_brace (by rw [blocked_eq]; rfl), braceTag?, (otherTags_blocked hname body rest).1, blockTag?_eq hname hbody]
  rfl

theorem tag?_recase (r : Recase) (hbody : Marked false calls true body) (rest : List Char) :
    tag? (blocked r.word body ++ rest) = some (.recase r body, rest) := by
  have hname := recaseWord_mem r
  have hne : "random" ≠ r.word := by cases r <;> decide
  obtain ⟨hweight, hredirect, htopic⟩ := otherTags_blocked hname body rest
  have hrecase : recaseTag? (blocked r.word body ++ rest) = some (.recase r body, rest) := by
    -- The names are tried one after the other, and only its own fits.
    have hblock : ∀ r' : Recase, blockTag? r'.word (.recase r') .casing (blocked r.word body ++ rest) =
        if r' = r then some (.recase r body, rest) else none := by
      intro r'
      by_cases heq : r' = r
      · rw [if_pos heq, heq, blockTag?_eq hname hbody]
      · have hword : r'.word ≠ r.word := fun hword => heq (Recase.word_injective hword)
        rw [if_neg heq, blockTag?_of_ne (recaseWord_mem r') hname hword]
    change ([Recase.sentence, .formal, .upper, .lower].findSome? fun r' => blockTag? r'.word (.recase r') .casing _) = _
    simp only [hblock]
    cases r <;> rfl
  rw [tag?_of_brace (by rw [blocked_eq]; rfl), braceTag?, hweight, blockTag?_of_ne List.mem_cons_self hname hne, hredirect,
    htopic, hrecase]
  rfl

theorem tag?_topic {name : String} (hplain : ∀ c ∈ name.toList, isPlain c = true) (htrim : trim name.toList = name.toList)
    (hlower : lower name.toList = name.toList) (rest : List Char) :
    tag? (braced "\x7btopic=" name.toList ++ rest) = some (.piece (.topic name), rest) := by
  have hbrace : '}' ∉ name.toList := fun hmem => absurd (hplain _ hmem) (by decide)
  have htopic : topicTag? ("\x7btopic=".toList ++ (name.toList ++ '}' :: rest)) = some (.piece (.topic name), rest) := by
    rw [topicTag?, bracedAfter?_eq _ hbrace]
    simp only [Option.join_some, Option.map_some, htrim, hlower, String.ofList_toList]
  rw [braced, List.append_assoc, List.append_assoc]
  change tag? ("\x7btopic=".toList ++ (name.toList ++ '}' :: rest)) = _
  have hweight : weightTag? ("\x7btopic=".toList ++ (name.toList ++ '}' :: rest)) = none := rfl
  have hrandom : blockTag? "random" .random .random ("\x7btopic=".toList ++ (name.toList ++ '}' :: rest)) = none := rfl
  have hredirect : redirectTag? ("\x7btopic=".toList ++ (name.toList ++ '}' :: rest)) = none := rfl
  rw [tag?_of_brace (by rfl), braceTag?, hweight, hrandom, hredirect, htopic]
  rfl

theorem tag?_weight (weight : Nat) (rest : List Char) :
    tag? (braced "\x7bweight=" (Nat.toDigits 10 weight) ++ rest) = some (.weight (Nat.toDigits 10 weight), rest) := by
  have hname := isIdentifier_toDigits weight
  have hbrace : '}' ∉ Nat.toDigits 10 weight := not_mem_of_isIdentifier hname (by decide)
  have hweight : weightTag? ("\x7bweight=".toList ++ (Nat.toDigits 10 weight ++ '}' :: rest)) =
      some (.weight (Nat.toDigits 10 weight), rest) := by
    rw [weightTag?, bracedAfter?_eq _ hbrace]
    simp only [Option.join_some, Option.map_some, trim_of_forall (not_blank_of_isIdentifier hname)]
  rw [braced, List.append_assoc, List.append_assoc]
  change tag? ("\x7bweight=".toList ++ (Nat.toDigits 10 weight ++ '}' :: rest)) = _
  rw [tag?_of_brace (by rfl), braceTag?, hweight]
  rfl

end Blocks

end Template

/-! ## Reading a tree -/

/-- The tag that a piece is written as, unless it is a text. -/
def Piece.tag : Piece → Tag
  | .set name value => .set name (printPieces value)
  | .math op name operand => .math op name (printPieces operand)
  | .call line => .call (printPieces line)
  | .redirect target => .redirect (printPieces target)
  | .random alternatives => .random (printAlternatives alternatives)
  | .recase r body => .recase r (printPieces body)
  | p => .piece p

theorem tag?_printed {calls braces : Bool} {p : Piece} (h : p.WellNested calls braces) (hp : p.isText = false)
    (rest : List Char) : tag? (p.printed ++ rest) = some (p.tag, rest) := by
  cases p with
  | text s => cases hp
  | star index | botStar index | input index | reply index =>
    exact tag?_indexed (by simp [indexedNames]) h rest
  | get name | bot name | env name => exact tag?_named rfl h rest
  | userId => rfl
  | set name value => exact tag?_assigned rfl h.1 (marked_pieces h.2.2) (trim_printPieces h.2.2 h.2.1) rest
  | math op name operand =>
    have hword : writing? op.word = some (.math op) := by cases op <;> rfl
    exact tag?_assigned hword h.1 (marked_pieces h.2.2) (trim_printPieces h.2.2 h.2.1) rest
  | topic name => exact tag?_topic (List.all_eq_true.mp h.2.1) h.2.2.1 h.2.2.2 rest
  | call line =>
    have htag := tag?_call (marked_pieces h.2.2) rest
    rwa [trim_printPieces h.2.2 h.2.1] at htag
  | redirect target =>
    have hmarked : Marked false calls false (printPieces target) := marked_pieces h.2.2
    have htag := tag?_braced (hmarked.brace_not_mem rfl) rest
    rw [trim_printPieces h.2.2 h.2.1] at htag
    rw [Piece.printed, braced, List.append_assoc, List.append_assoc]
    exact htag
  | random alternatives =>
    obtain ⟨rfl, -, halternatives⟩ := h
    exact tag?_random (marked_alternatives halternatives) rest
  | recase r body =>
    obtain ⟨rfl, hbody⟩ := h
    exact tag?_recase r (marked_pieces hbody) rest

theorem cutBars_printAlternatives {calls braces : Bool} {alternatives : List (List Piece)} (hne : alternatives ≠ [])
    (h : alternativesWellNested calls braces alternatives) :
    cutBars 0 (printAlternatives alternatives) = alternatives.map printPieces := by
  induction alternatives with
  | nil => exact absurd rfl hne
  | cons ps alternatives ih =>
    obtain ⟨hend, hbar⟩ := (marked_pieces h.1).cutBars_eq
    cases alternatives with
    | nil => exact hend
    | cons qs alternatives =>
      rw [printAlternatives, hbar, ih (List.cons_ne_nil qs alternatives) h.2]
      rfl

theorem alternatives_printed {calls braces : Bool} {alternatives : List (List Piece)} (hlength : 2 ≤ alternatives.length)
    (h : alternativesWellNested calls braces alternatives) :
    Template.alternatives (printAlternatives alternatives) = alternatives.map printPieces := by
  have hne : alternatives ≠ [] := List.ne_nil_of_length_pos (by omega)
  rw [Template.alternatives, cutBars_printAlternatives hne h]
  cases alternatives with
  | nil => exact absurd rfl hne
  | cons ps alternatives =>
    cases alternatives with
    | nil => exact absurd hlength (Nat.lt_irrefl 1)
    | cons qs alternatives => rfl

section Reading

variable {whole : String} {calls braces : Bool}

theorem readPieces_plain {text run : List Char} (h : ∀ c ∈ text, isPlain c = true) (rest : List Char) :
    readPieces whole run (text ++ rest) = readPieces whole (text.reverse ++ run) rest :=
  readPieces_text (fun c hc =>
    ⟨ne_of_isPlain (h c hc) (by decide), ne_of_isPlain (h c hc) (by decide), ne_of_isPlain (h c hc) (by decide)⟩) rest

/-- A tag is no escape. -/
theorem readPieces_tag {run cs after : List Char} {t : Tag} (h : tag? cs = some (t, after)) :
    readPieces whole run cs = t.meaning whole >>= continued whole run after := by
  cases cs with
  | nil => cases h
  | cons c cs =>
    have hc : c ≠ '\\' := by
      rintro rfl
      cases h
    exact readPieces_of_tag (escape?_of_ne hc cs) h

/-- Pieces are read back if what their tags hold is. The text that follows them has nothing but a weight. -/
theorem readPieces_printed {tail : List Char} {weight : Option Nat}
    (htail : ∀ run, readPieces whole run tail = .ok (textPiece run, weight)) {ps : List Piece} (h : wellNested calls braces ps)
    (hmeaning : ∀ p ∈ ps, p.isText = false → p.tag.meaning whole = .ok (some p, none)) {run : List Char}
    (hrun : run ≠ [] → ps.head?.any Piece.isText = false) :
    readPieces whole run (printPieces ps ++ tail) = .ok (textPiece run ++ ps, weight) := by
  -- On the pieces. A text waits in `run` until the next tag, so nothing may be in it when a text comes.
  induction ps generalizing run with
  | nil =>
    rw [printPieces, List.nil_append, htail, List.append_nil]
  | cons p ps ih =>
    obtain ⟨hp, hbeside, hps⟩ := h
    obtain ⟨hpmeaning, hpsmeaning⟩ := List.forall_mem_cons.mp hmeaning
    rw [printPieces, List.append_assoc]
    cases htext : p.isText with
    | false =>
      rw [readPieces_tag (tag?_printed hp htext _), hpmeaning htext]
      change (readPieces whole [] (printPieces ps ++ tail) >>= _) = _
      rw [ih hps hpsmeaning (absurd rfl)]
      rfl
    | true =>
      cases p with
      | text s =>
        have hempty : run = [] := by
          by_contra hne
          cases hrun hne
        rw [Piece.printed, readPieces_plain (List.all_eq_true.mp hp.2), ih hps hpsmeaning (fun _ => hbeside), hempty]
        have hs : s.toList.reverse.isEmpty = false := by
          rw [List.isEmpty_reverse, List.isEmpty_eq_false_iff]
          exact hp.1
        rw [List.append_nil, textPiece, hs, if_neg Bool.false_ne_true, List.reverse_reverse, String.ofList_toList]
        rfl
      | _ => cases htext

mutual

theorem Piece.WellNested.meaning {calls braces : Bool} {p : Piece} (h : p.WellNested calls braces) (hp : p.isText = false) :
    p.tag.meaning whole = .ok (some p, none) := by
  cases p with
  | text s => cases hp
  | set name value =>
    rw [Piece.tag, Tag.meaning, readPieces_printPieces h.2.2]
    rfl
  | math op name operand =>
    rw [Piece.tag, Tag.meaning, readPieces_printPieces h.2.2]
    rfl
  | call line =>
    rw [Piece.tag, Tag.meaning, readPieces_printPieces h.2.2]
    rfl
  | redirect target =>
    rw [Piece.tag, Tag.meaning, readPieces_printPieces h.2.2]
    rfl
  | random alternatives =>
    rw [Piece.tag, Tag.meaning, alternatives_printed h.2.1 h.2.2, mapM_printPieces h.2.2]
    have hfirst : (alternatives.map fun ps => (ps, (none : Option Nat))).map (·.1) = alternatives := by
      rw [List.map_map]
      exact List.map_id alternatives
    change Except.ok (some (Piece.random ((alternatives.map fun ps => (ps, (none : Option Nat))).map (·.1))), none) = _
    rw [hfirst]
  | recase r body =>
    rw [Piece.tag, Tag.meaning, readPieces_printPieces h.2]
    rfl
  | _ => rfl

theorem meaning_of_mem {calls braces : Bool} {ps : List Piece} (h : wellNested calls braces ps) :
    ∀ p ∈ ps, p.isText = false → p.tag.meaning whole = .ok (some p, none) := by
  cases ps with
  | nil => exact List.forall_mem_nil _
  | cons p ps => exact List.forall_mem_cons.mpr ⟨h.1.meaning, meaning_of_mem h.2.2⟩

theorem readPieces_printPieces {calls braces : Bool} {ps : List Piece} (h : wellNested calls braces ps) :
    readPieces whole [] (printPieces ps) = .ok (ps, none) := by
  have htail : ∀ run, readPieces whole run [] = .ok (textPiece run, none) := fun run => by rw [readPieces]
  have hread : readPieces whole [] (printPieces ps ++ []) = .ok (textPiece [] ++ ps, none) :=
    readPieces_printed htail h (meaning_of_mem h) (absurd rfl)
  rwa [List.append_nil] at hread

theorem mapM_printPieces {calls braces : Bool} {alternatives : List (List Piece)}
    (h : alternativesWellNested calls braces alternatives) :
    (alternatives.map printPieces).mapM (readPieces whole []) = .ok (alternatives.map fun ps => (ps, none)) := by
  cases alternatives with
  | nil => rfl
  | cons ps alternatives =>
    rw [List.map_cons, List.mapM_cons, readPieces_printPieces h.1, mapM_printPieces h.2]
    rfl

end

theorem readPieces_weightMark {weight : Nat} (h : weight < Decimal.bound32) (run : List Char) :
    readPieces whole run (braced "\x7bweight=" (Nat.toDigits 10 weight)) = .ok (textPiece run, some weight) := by
  have htag := tag?_weight weight []
  rw [List.append_nil] at htag
  rw [readPieces_tag htag, Tag.meaning, Decimal.natural_toDigits h]
  change (readPieces whole run [] >>= _) = _
  rw [readPieces]
  rfl

end Reading

/-- Well nested pieces are read back from what they are written as. A weight behind them changes nothing but
the weight of the reply. -/
theorem Template.read_printed {ps : List Piece} (h : wellNested true true ps) :
    read (printed ps) = .ok { source := printed ps, pieces := ps, weight := 0 } ∧
      ∀ weight < Decimal.bound32, read (printed ps ++ weightMark weight) =
        .ok { source := printed ps ++ weightMark weight, pieces := ps, weight } := by
  constructor
  · rw [read, printed, String.toList_ofList, readPieces_printPieces h]
    rfl
  · intro weight hweight
    have hlist : (printed ps ++ weightMark weight).toList =
        printPieces ps ++ braced "\x7bweight=" (Nat.toDigits 10 weight) := by
      rw [String.toList_append, printed, weightMark, String.toList_ofList, String.toList_ofList]
    rw [read, hlist, readPieces_printed (readPieces_weightMark hweight) h (meaning_of_mem h) (absurd rfl)]
    rfl

/-- Every search for an end meets a mark of its own kind on its way. -/
theorem Template.read_printed_nested : ∃ ps, wellNested true true ps ∧
    printed ps = "Hi \x7bformal\x7d\x7bformal\x7d<get name>\x7b/formal\x7d\x7b/formal\x7d, \x7brandom\x7d" ++
      "<set mood=<add n=1>>|\x7brandom\x7d<star 1>|\x7b/random\x7d\x7b/random\x7d\x7b@<call>echo <input 2></call>\x7d" ∧
    read (printed ps) = .ok { source := printed ps, pieces := ps, weight := 0 } ∧
      ∀ weight < Decimal.bound32, read (printed ps ++ weightMark weight) =
        .ok { source := printed ps ++ weightMark weight, pieces := ps, weight } := by
  have h : wellNested true true [.text "Hi ", .recase .formal [.recase .formal [.get "name"]], .text ", ",
      .random [[.set "mood" [.math .add "n" [.text "1"]]], [.random [[.star 1], []]]],
      .redirect [.call [.text "echo ", .input 2]]] := by
    simp only [wellNested, Piece.WellNested, alternativesWellNested, Piece.isText, List.head?_cons, List.head?_nil,
      Option.any_some, Option.any_none, Bool.true_and, Bool.false_and, true_and, and_true]
    decide +kernel
  exact ⟨_, h, by decide +kernel, read_printed h⟩

end Repartee
