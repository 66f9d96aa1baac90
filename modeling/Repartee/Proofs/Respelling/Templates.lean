/-
  Repartee.Proofs.Respelling.Templates — replies and conditions in two spellings.

  Read in either spelling a text has the same pieces, but for blanks at its end, and the same
  weight; or it is faulty in both. A text that stands between blanks has the pieces it has alone,
  but for these blanks.

  Proved:
  - What is read after an escape, a plain character and a tag (`readPieces_of_escape`,
    `readPieces_of_plain`, `readPieces_of_tag`).
  - Reading is alike in both spellings (`readPieces_alike`), and so is reading a condition
    (`Condition.read_alike`).
  - What stands before the text goes into its first piece (`runsInto_readPieces`).
-/

import Repartee.Proofs.Respelling.Tags
import Repartee.Proofs.Results
import Repartee.Template.Reader

namespace Repartee.Template

open Text
open Unicode (isBlank)

/-! ## One step of reading -/

/-- What a tag stands for: a piece, or a weight of its level. -/
def Tag.meaning (whole : String) : Tag → Except RuleFault (Option Piece × Option Nat)
  | .weight value =>
    match Decimal.natural Decimal.bound32 value with
    | none => .error (.badWeight (.ofList value) whole)
    | some w => .ok (none, some w)
  | .unclosed what => .error (.unclosed what whole)
  | .piece p => .ok (some p, none)
  | .random body => do
    let alts ← (alternatives body).mapM (readPieces whole [])
    .ok (some (.random (alts.map (·.1))), none)
  | .set name value => do
    let (value, _) ← readPieces whole [] value
    .ok (some (.set name value), none)
  | .math op name operand => do
    let (operand, _) ← readPieces whole [] operand
    .ok (some (.math op name operand), none)
  | .call line => do
    let (line, _) ← readPieces whole [] line
    .ok (some (.call line), none)
  | .redirect target => do
    let (target, _) ← readPieces whole [] target
    .ok (some (.redirect target), none)
  | .recase r body => do
    let (body, _) ← readPieces whole [] body
    .ok (some (.recase r body), none)

/-- The pieces of a text that begins with a tag of this meaning. A weight leaves no piece, and a later
one counts. -/
def continued (whole : String) (run after : List Char) :
    Option Piece × Option Nat → Except RuleFault (List Piece × Option Nat)
  | (some p, _) => do
    let (pieces, weight) ← readPieces whole [] after
    .ok (textPiece run ++ p :: pieces, weight)
  | (none, weight) => do
    let (pieces, later) ← readPieces whole run after
    .ok (pieces, later <|> weight)

section Steps

variable {whole : String} {run cs after : List Char} {c e : Char}

theorem readPieces_of_escape (h : escape? (c :: cs) = some (e, after)) :
    readPieces whole run (c :: cs) = readPieces whole (e :: run) after := by
  rw [readPieces]
  split
  · rename_i he
    cases h.symm.trans he
    rfl
  · rename_i he
    cases h.symm.trans he

theorem readPieces_of_plain (he : escape? (c :: cs) = none) (ht : tag? (c :: cs) = none) :
    readPieces whole run (c :: cs) = readPieces whole (c :: run) cs := by
  rw [readPieces]
  split
  · rename_i he'
    cases he.symm.trans he'
  · split
    · rfl
    all_goals
      rename_i ht'
      cases ht.symm.trans ht'

theorem readPieces_of_tag {t : Tag} (he : escape? (c :: cs) = none) (ht : tag? (c :: cs) = some (t, after)) :
    readPieces whole run (c :: cs) = t.meaning whole >>= continued whole run after := by
  rw [readPieces]
  split
  · rename_i he'
    cases he.symm.trans he'
  · split
    · rename_i ht'
      cases ht.symm.trans ht'
    · rename_i value _ ht'
      cases ht.symm.trans ht'
      rw [Tag.meaning]
      cases Decimal.natural Decimal.bound32 value with
      | none => rfl
      | some w =>
        refine bind_congr (x := readPieces whole run after) fun read => ?_
        obtain ⟨pieces, later⟩ := read
        cases later with
        | none => rfl
        | some w' => rfl
    · rename_i ht'
      cases ht.symm.trans ht'
      rfl
    · rename_i ht'
      cases ht.symm.trans ht'
      rfl
    · rename_i body _ ht'
      cases ht.symm.trans ht'
      rw [Tag.meaning, bind_assoc]
      rw [List.mapM_subtype fun _ _ => rfl, List.unattach_attach]
      rfl
    all_goals
      rename_i ht'
      cases ht.symm.trans ht'
      rw [Tag.meaning, bind_assoc]
      rfl

end Steps

/-! ## Reading in both spellings -/

/-- Both computations fail, or both succeed with related results. -/
inductive SameOutcome {ε ε' α β : Type} (R : α → β → Prop) : Except ε α → Except ε' β → Prop
  | ok {a : α} {b : β} : R a b → SameOutcome R (.ok a) (.ok b)
  | error (e : ε) (e' : ε') : SameOutcome R (.error e) (.error e')

namespace SameOutcome

variable {ε ε' α β γ δ : Type} {R : α → β → Prop} {S : γ → δ → Prop} {x : Except ε α} {y : Except ε' β}

theorem bind {f : α → Except ε γ} {g : β → Except ε' δ} (h : SameOutcome R x y)
    (hfg : ∀ a b, R a b → SameOutcome S (f a) (g b)) : SameOutcome S (x >>= f) (y >>= g) := by
  cases h with
  | ok hR => exact hfg _ _ hR
  | error e e' => exact .error e e'

theorem mapM {T : α → β → Prop} {f : α → Except ε γ} {g : β → Except ε' δ} {as : List α} {bs : List β}
    (h : List.Forall₂ T as bs) (hfg : ∀ a ∈ as, ∀ b, T a b → SameOutcome S (f a) (g b)) :
    SameOutcome (List.Forall₂ S) (as.mapM f) (bs.mapM g) := by
  induction h with
  | nil => exact .ok .nil
  | cons hab _ ih =>
    rw [List.forall_mem_cons] at hfg
    rw [List.mapM_cons, List.mapM_cons]
    exact (hfg.1 _ hab).bind fun c d hcd => (ih hfg.2).bind fun cs ds hcds => .ok (.cons hcd hcds)

theorem optionMapM {T : α → β → Prop} {f : α → Except ε γ} {g : β → Except ε' δ} {a : Option α} {b : Option β}
    (h : Option.Rel T a b) (hfg : ∀ a b, T a b → SameOutcome S (f a) (g b)) :
    SameOutcome (Option.Rel S) (a.mapM f) (b.mapM g) := by
  cases h with
  | none => exact .ok .none
  | some hab => exact (hfg _ _ hab).bind fun c d hcd => .ok (.some hcd)

theorem imp {R' : α → β → Prop} (h : SameOutcome R x y) (hR : ∀ a b, R a b → R' a b) : SameOutcome R' x y := by
  cases h with
  | ok hab => exact .ok (hR _ _ hab)
  | error e e' => exact .error e e'

end SameOutcome

/-- The same pieces and weight, but for a text added at the end. -/
structure Padded (pad : List Char) (read read' : List Piece × Option Nat) : Prop where
  weight : read'.2 = read.2
  pieces : ∃ front last, read.1 = front ++ textPiece last ∧ read'.1 = front ++ textPiece (pad.reverse ++ last)

theorem Padded.eq {read read' : List Piece × Option Nat} (h : Padded [] read read') : read = read' := by
  obtain ⟨front, last, hread, hread'⟩ := h.pieces
  exact Prod.ext (hread.trans hread'.symm) h.weight.symm

theorem escape?_of_ne {c : Char} (h : c ≠ '\\') (cs : List Char) : escape? (c :: cs) = none := by
  rw [escape?]
  intro d rest heq
  cases heq
  exact h rfl

theorem escaped?_of_blank {c : Char} (h : isBlank c = true) : escaped? c = none := by
  have hne : ∀ d, isBlank d = false → c ≠ d := by
    rintro d hd rfl
    rw [h] at hd
    cases hd
  rw [escaped?, if_neg (hne _ (by decide)), if_neg (hne _ (by decide)), if_neg (hne _ (by decide)),
    if_neg (hne _ (by decide))]

section Reading

variable {pad l l' run : List Char} {within : Bool} {whole whole' : String}

/-- Text in which no escape and no tag begins. -/
theorem readPieces_text {text : List Char} (h : ∀ c ∈ text, c ≠ '\\' ∧ c ≠ '{' ∧ c ≠ '<') (cs : List Char) :
    readPieces whole run (text ++ cs) = readPieces whole (text.reverse ++ run) cs := by
  induction text generalizing run with
  | nil => rfl
  | cons c text ih =>
    obtain ⟨⟨hescape, hbrace, hangle⟩, htext⟩ := List.forall_mem_cons.mp h
    have htag : tag? (c :: (text ++ cs)) = none := by
      rw [tag?, if_neg hbrace, if_neg hangle]
    rw [List.cons_append, readPieces_of_plain (escape?_of_ne hescape _) htag, ih htext, List.reverse_cons, List.append_assoc]
    rfl

theorem readPieces_blanks {blanks : List Char} (hblanks : ∀ c ∈ blanks, isBlank c = true) (cs : List Char) :
    readPieces whole run (blanks ++ cs) = readPieces whole (blanks.reverse ++ run) cs := by
  have hne : ∀ c ∈ blanks, ∀ d, isBlank d = false → c ≠ d := by
    rintro c hc d hd rfl
    cases (hblanks c hc).symm.trans hd
  exact readPieces_text (fun c hc => ⟨hne c hc _ (by decide), hne c hc _ (by decide), hne c hc _ (by decide)⟩) cs

theorem readPieces_star : readPieces whole [] ['<', 's', 't', 'a', 'r', '>'] = .ok (firstStar, none) := by
  have htag : tag? ['<', 's', 't', 'a', 'r', '>'] = some (.piece (.star 1), []) := rfl
  rw [readPieces_of_tag rfl htag, Tag.meaning]
  change (readPieces whole [] [] >>= fun read => .ok (textPiece [] ++ Piece.star 1 :: read.1, read.2)) = _
  rw [readPieces]
  rfl

theorem escape?_alike {c : Char} (hpad : ∀ c ∈ pad, isBlank c = true) (h : Respelled pad (awaits within (c :: l)) l l') :
    Option.Rel (fun found found' => found'.1 = found.1 ∧ Respelled pad false found.2 found'.2) (escape? (c :: l))
      (escape? (c :: l')) := by
  by_cases hc : c = '\\'
  · subst hc
    generalize awaits within ('\\' :: l) = awaited at h
    cases h with
    | pad =>
      cases pad with
      | nil => exact .none
      | cons d pad =>
        rw [escape?, escape?, escaped?_of_blank (hpad d List.mem_cons_self)]
        exact .none
        rintro _ _ ⟨⟩
    | @keep _ d l l' h =>
      rw [escape?, escape?]
      cases escaped? d with
      | none => exact .none
      | some e => exact .some ⟨rfl, h.free⟩
    | redirect h => exact .none
  · rw [escape?_of_ne hc, escape?_of_ne hc]
    exact .none

/-- A tag means the same in both spellings if what it holds is read alike. -/
theorem meaning_alike {t t' : Tag} (h : t.Alike t')
    (hread : ∀ {cs cs'}, cs.length ≤ t.inside.length → Respelled [] false cs cs' →
      SameOutcome Eq (readPieces whole [] cs) (readPieces whole' [] cs')) :
    SameOutcome Eq (t.meaning whole) (t'.meaning whole') := by
  have hheld : ∀ {cs cs'} (tag : List Piece → Piece), cs.length ≤ t.inside.length → Respelled [] false cs cs' →
      SameOutcome Eq (do
        let (pieces, _) ← readPieces whole [] cs
        .ok (some (tag pieces), (none : Option Nat)) : Except RuleFault (Option Piece × Option Nat))
        (do
        let (pieces, _) ← readPieces whole' [] cs'
        .ok (some (tag pieces), none) : Except RuleFault (Option Piece × Option Nat)) := by
    intro cs cs' tag hlength hcs
    refine (hread hlength hcs).bind fun read read' heq => ?_
    rw [heq]
    exact .ok rfl
  have hrandom : ∀ {cs cs'}, cs.length ≤ t.inside.length → Respelled [] false cs cs' →
      SameOutcome Eq ((Tag.random cs).meaning whole) ((Tag.random cs').meaning whole') := by
    intro cs cs' hlength hcs
    have halts : SameOutcome (List.Forall₂ Eq) ((alternatives cs).mapM (readPieces whole []))
        ((alternatives cs').mapM (readPieces whole' [])) :=
      .mapM (alternatives_alike hcs) fun a ha _ hab =>
        hread (Nat.le_trans (length_le_of_mem_alternatives ha) hlength) hab
    refine halts.bind fun alts alts' heq => ?_
    rw [List.forall₂_eq_eq_eq] at heq
    rw [heq]
    exact .ok rfl
  cases h with
  | same t =>
    cases t with
    | weight value =>
      rw [Tag.meaning, Tag.meaning]
      cases Decimal.natural Decimal.bound32 value with
      | none => exact .error _ _
      | some w => exact .ok rfl
    | unclosed what => exact .error _ _
    | piece p => exact .ok rfl
    | random body => exact hrandom (Nat.le_refl _) (.refl _ _)
    | set name value => exact hheld (.set name) (Nat.le_refl _) (.refl _ _)
    | math op name operand => exact hheld (.math op name) (Nat.le_refl _) (.refl _ _)
    | call line => exact hheld .call (Nat.le_refl _) (.refl _ _)
    | redirect target => exact hheld .redirect (Nat.le_refl _) (.refl _ _)
    | recase r body => exact hheld (.recase r) (Nat.le_refl _) (.refl _ _)
  | set name hvalue => exact hheld (.set name) (Nat.le_refl _) hvalue
  | math op name hoperand => exact hheld (.math op name) (Nat.le_refl _) hoperand
  | call hline => exact hheld .call (Nat.le_refl _) hline
  | random hbody => exact hrandom (Nat.le_refl _) hbody
  | recase r hbody => exact hheld (.recase r) (Nat.le_refl _) hbody

theorem continued_alike {after after' : List Char} (hread : ∀ run, SameOutcome (Padded pad) (readPieces whole run after)
    (readPieces whole' run after')) (meaning : Option Piece × Option Nat) :
    SameOutcome (Padded pad) (continued whole run after meaning) (continued whole' run after' meaning) := by
  obtain ⟨p | p, weight⟩ := meaning
  · refine (hread run).bind fun read read' h => .ok ⟨?_, h.pieces⟩
    rw [h.weight]
  · refine (hread []).bind fun read read' ⟨hweight, front, last, hpieces, hpieces'⟩ => .ok ⟨hweight, ?_⟩
    refine ⟨textPiece run ++ p :: front, last, ?_, ?_⟩
    · simp only [hpieces, List.append_assoc, List.cons_append]
    · simp only [hpieces', List.append_assoc, List.cons_append]

/-- A text is read alike in both spellings. -/
theorem readPieces_alike (hpad : ∀ c ∈ pad, isBlank c = true) (h : Respelled pad within l l') :
    SameOutcome (Padded pad) (readPieces whole run l) (readPieces whole' run l') := by
  induction hn : l.length using Nat.strongRecOn generalizing pad within l l' run with
  | _ n ih =>
    subst hn
    -- What a tag holds stands between its marks, so no blanks are added to it.
    have hinside : ∀ {k : Nat}, k < l.length → ∀ {cs cs'}, cs.length ≤ k → Respelled [] false cs cs' →
        SameOutcome Eq (readPieces whole [] cs) (readPieces whole' [] cs') := by
      intro k hk cs cs' hcs hspelled
      exact (ih cs.length (Nat.lt_of_le_of_lt hcs hk) (List.forall_mem_nil _) hspelled rfl).imp fun _ _ => Padded.eq
    cases h with
    | pad =>
      have hblanks : readPieces whole' run (pad ++ []) = readPieces whole' (pad.reverse ++ run) [] :=
        readPieces_blanks hpad []
      rw [List.append_nil] at hblanks
      rw [hblanks, readPieces, readPieces]
      exact .ok ⟨rfl, [], run, rfl, rfl⟩
    | @keep _ c l l' h =>
      rcases rel_cases (escape?_alike hpad h) with ⟨he, he'⟩ | ⟨⟨e, after⟩, ⟨e', after'⟩, he, he', heq, hafter⟩
      · rcases rel_cases (tag?_alike hpad h) with ⟨ht, ht'⟩ | ⟨_, _, ht, ht', hfound⟩
        · rw [readPieces_of_plain he ht, readPieces_of_plain he' ht']
          exact ih _ (Nat.lt_succ_self _) hpad h rfl
        · cases hfound with
          | unclosed what =>
            rw [readPieces_of_tag he ht, readPieces_of_tag he' ht']
            exact .error _ _
          | tag htags hrest =>
            rw [readPieces_of_tag he ht, readPieces_of_tag he' ht']
            refine (meaning_alike htags (hinside (shorter_tag? ht).2)).bind fun meaning meaning' heq => ?_
            rw [heq]
            exact continued_alike (fun run => ih _ (shorter_tag? ht).1 hpad hrest rfl) _
      · cases heq
        rw [readPieces_of_escape he, readPieces_of_escape he']
        exact ih _ (escape?_length he) hpad hafter rfl
    | @redirect l l' h =>
      have hlong : (Tag.redirect "<star>".toList).meaning whole' = .ok (some (.redirect firstStar), none) := by
        change (readPieces whole' [] ['<', 's', 't', 'a', 'r', '>'] >>= _) = _
        rw [readPieces_star]
        rfl
      have hlength : l.length < ('<' :: '@' :: '>' :: l).length := by
        simp only [List.length_cons]
        omega
      rw [readPieces_of_tag rfl (tag?_short l), readPieces_of_tag rfl (tag?_long l'), hlong]
      exact continued_alike (fun run => ih _ hlength hpad h rfl) (some (.redirect firstStar), none)

/-- Plain text before it goes into the first piece of what is read, last character first. -/
inductive RunsInto (read : List Char → Except RuleFault (List Piece × Option Nat)) : Prop
  | error (e : RuleFault) : (∀ run, read run = .error e) → RunsInto read
  | ok (first : List Char) (back : List Piece) (weight : Option Nat) :
      (∀ run, read run = .ok (textPiece (first ++ run) ++ back, weight)) → RunsInto read

theorem RunsInto.cons {read read' : List Char → Except RuleFault (List Piece × Option Nat)} {c : Char} (h : RunsInto read')
    (hread : ∀ run, read run = read' (c :: run)) : RunsInto read := by
  cases h with
  | error e he => exact .error e fun run => (hread run).trans (he _)
  | ok first back weight hok =>
    refine .ok (first ++ [c]) back weight fun run => ?_
    rw [hread, hok, List.append_assoc]
    rfl

theorem runsInto_continued {after : List Char} (h : RunsInto fun run => readPieces whole run after)
    (meaning : Option Piece × Option Nat) : RunsInto fun run => continued whole run after meaning := by
  obtain ⟨p | p, weight⟩ := meaning
  · cases h with
    | error e he =>
      refine .error e fun run => ?_
      simp only [continued, he]
      rfl
    | ok first back later hok =>
      refine .ok first back (later <|> weight) fun run => ?_
      simp only [continued, hok]
      rfl
  · cases hread : readPieces whole [] after with
    | error e =>
      refine .error e fun run => ?_
      simp only [continued, hread]
      rfl
    | ok read =>
      refine .ok [] (p :: read.1) read.2 fun run => ?_
      simp only [continued, hread]
      rfl

theorem runsInto_readPieces (whole : String) (cs : List Char) : RunsInto fun run => readPieces whole run cs := by
  induction hn : cs.length using Nat.strongRecOn generalizing cs with
  | _ n ih =>
    subst hn
    cases cs with
    | nil =>
      refine .ok [] [] none fun run => ?_
      rw [readPieces, List.append_nil]
      rfl
    | cons c rest =>
      cases he : escape? (c :: rest) with
      | some found => exact (ih _ (escape?_length he) found.2 rfl).cons fun run => readPieces_of_escape he
      | none =>
        cases ht : tag? (c :: rest) with
        | none => exact (ih _ (Nat.lt_succ_self _) rest rfl).cons fun run => readPieces_of_plain he ht
        | some found =>
          simp only [readPieces_of_tag he ht]
          cases found.1.meaning whole with
          | error e => exact .error e fun run => rfl
          | ok meaning => exact runsInto_continued (ih _ (shorter_tag? ht).1 found.2 rfl) meaning

end Reading

/-! ## Replies and conditions -/

/-- The same reply, but for its source. -/
structure Alike (t t' : Template) : Prop where
  pieces : t'.pieces = t.pieces
  weight : t'.weight = t.weight

theorem read_alike {source source' : String} {within : Bool} (h : Respelled [] within source.toList source'.toList) :
    SameOutcome Alike (read source) (read source') := by
  refine (readPieces_alike (List.forall_mem_nil _) h).bind fun read read' hread => .ok ?_
  rw [hread.eq]
  exact ⟨rfl, rfl⟩

theorem read_ofList_alike {l l' : List Char} {within : Bool} (h : Respelled [] within l l') :
    SameOutcome Alike (read (.ofList l)) (read (.ofList l')) :=
  read_alike (by simpa only [String.toList_ofList] using h)

end Repartee.Template

namespace Repartee.Condition

open Text Template
open Unicode (isBlank)

/-- A comparison has no tag in it. -/
theorem ofText?_alike {l l' : List Char} {within : Bool} (h : Respelled [] within l l') :
    Comparison.ofText? (.ofList l') = Comparison.ofText? (.ofList l) := by
  have hnone : ∀ cs : List Char, '@' ∈ cs → Comparison.ofText? (.ofList cs) = none := by
    intro cs hcs
    have hne : ∀ s ∈ ["==", "eq", "!=", "ne", "<>", "<", "<=", ">", ">="], String.ofList cs ≠ s := by
      rintro s hs rfl
      have hfree : ∀ s ∈ ["==", "eq", "!=", "ne", "<>", "<", "<=", ">", ">="], '@' ∉ s.toList := by decide
      exact hfree _ hs (by rwa [String.toList_ofList])
    simp only [List.forall_mem_cons] at hne
    simp [Comparison.ofText?, hne]
  rcases h.eq_or_mem with rfl | ⟨-, hat, -, hat'⟩
  · rfl
  · rw [hnone l hat, hnone l' hat']

theorem operator?_alike {l l' : List Char} {within : Bool} (h : Respelled [] within l l') :
    Option.Rel (fun found found' => found'.1 = found.1 ∧ Respelled [] false found.2 found'.2) (operator? l)
      (operator? l') := by
  have htrim := h.trimStart
  have hright := htrim.dropWord.trimStart
  rw [operator?, operator?]
  simp only [Option.bind_eq_bind, ofText?_alike htrim.takeWord, hright.contains_eq (c := '\n') (by decide)]
  cases Comparison.ofText? (.ofList ((trimStart l).takeWhile (!isBlank ·))) with
  | none => exact .none
  | some comparison =>
    simp only [Option.bind_some]
    split
    · exact .none
    · exact .some ⟨rfl, hright⟩

/-- The operator at the beginning of a text, if one may stand there. -/
def operatorIf (allowed : Bool) (cs : List Char) : Option (Comparison × List Char) :=
  if allowed then operator? cs else none

/-- `cutGuard` by what it asks of the text before: that there is some, and that it is on one line. -/
def cutGuardAfter (started lined : Bool) : List Char → Option (List Char × Comparison × List Char)
  | [] => none
  | c :: cs =>
    match operatorIf (isBlank c && started && !lined) (c :: cs) with
    | some found => some ([], found)
    | none => (cutGuardAfter true (lined || c == '\n') cs).map fun (left, found) => (c :: left, found)

theorem cutGuardAfter_cons (started lined : Bool) (c : Char) (cs : List Char) : cutGuardAfter started lined (c :: cs) =
    match operatorIf (isBlank c && started && !lined) (c :: cs) with
    | some found => some ([], found)
    | none => (cutGuardAfter true (lined || c == '\n') cs).map fun (left, found) => (c :: left, found) := (rfl)

theorem cutGuard_cons (before : List Char) (c : Char) (cs : List Char) : cutGuard before (c :: cs) =
    match operatorIf (isBlank c && !before.isEmpty && !before.contains '\n') (c :: cs) with
    | some (comparison, right) => some (before.reverse, comparison, right)
    | none => cutGuard (c :: before) cs := (rfl)

theorem cutGuard_eq (before cs : List Char) : cutGuard before cs =
    (cutGuardAfter (!before.isEmpty) (before.contains '\n') cs).map
      fun (left, found) => (before.reverse ++ left, found) := by
  induction cs generalizing before with
  | nil => rfl
  | cons c cs ih =>
    have hlined : (c :: before).contains '\n' = (before.contains '\n' || c == '\n') := by
      rw [List.contains_cons, Bool.or_comm, Bool.beq_comm]
    rw [cutGuard_cons, cutGuardAfter_cons]
    cases operatorIf (isBlank c && !before.isEmpty && !before.contains '\n') (c :: cs) with
    | some found => simp
    | none =>
      simp only [ih, hlined, List.isEmpty_cons, Bool.not_false, Option.map_map]
      congr 1
      funext found
      simp

theorem operatorIf_alike {l l' : List Char} {within : Bool} (h : Respelled [] within l l') (allowed : Bool) :
    Option.Rel (fun found found' => found'.1 = found.1 ∧ Respelled [] false found.2 found'.2) (operatorIf allowed l)
      (operatorIf allowed l') := by
  cases allowed with
  | false => exact .none
  | true => exact operator?_alike h

/-- How guards are cut in both spellings. -/
def GuardAlike (within : Bool) (l : List Char) :
    Option (List Char × Comparison × List Char) → Option (List Char × Comparison × List Char) → Prop :=
  Option.Rel fun found found' => found.1 <+: l ∧ Respelled [] within found.1 found'.1 ∧ found'.2.1 = found.2.1 ∧
    Respelled [] false found.2.2 found'.2.2

theorem cutGuardAfter_alike {l l' : List Char} {within : Bool} (h : Respelled [] within l l') (started lined : Bool) :
    GuardAlike within l (cutGuardAfter started lined l) (cutGuardAfter started lined l') := by
  induction h generalizing started lined with
  | pad => exact .none
  | @keep within c l l' h ih =>
    have hmore : GuardAlike within (c :: l)
        ((cutGuardAfter true (lined || c == '\n') l).map fun (left, found) => (c :: left, found))
        ((cutGuardAfter true (lined || c == '\n') l').map fun (left, found) => (c :: left, found)) := by
      refine rel_map (fun found found' hfound => ?_) (ih true (lined || c == '\n'))
      obtain ⟨hbegins, hleft, hright⟩ := hfound
      exact ⟨List.cons_prefix_cons.mpr ⟨rfl, hbegins⟩, hleft.cons_of_begins hbegins, hright⟩
    rw [cutGuardAfter_cons, cutGuardAfter_cons]
    rcases rel_cases (operatorIf_alike (.keep h) (isBlank c && started && !lined)) with
      ⟨hl, hl'⟩ | ⟨found, found', hl, hl', heq, hright⟩
    · rw [hl, hl']
      exact hmore
    · rw [hl, hl']
      exact .some ⟨List.nil_prefix, .pad, heq, hright⟩
  | redirect h ih =>
    have hblank : ∀ c ∈ tagChars, isBlank c = false ∧ (c == '\n') = false := forall_of_all (by decide)
    simp only [tagChars, List.forall_mem_cons] at hblank
    simp only [cutGuardAfter_cons, operatorIf, hblank, Bool.false_and, Bool.false_eq_true, if_false, Bool.or_false,
      Option.map_map]
    refine rel_map (fun found found' hfound => ?_) (ih true lined)
    obtain ⟨hbegins, hleft, hright⟩ := hfound
    exact ⟨by simpa using hbegins, .redirect hleft, hright⟩

/-- The same condition, but for its source and those of its parts. -/
structure Alike (c c' : Condition) : Prop where
  left : c.left.Alike c'.left
  comparison : c'.comparison = c.comparison
  right : c.right.Alike c'.right
  body : c.body.Alike c'.body

theorem read_alike {source source' : String} {within : Bool} (h : Respelled [] within source.toList source'.toList) :
    SameOutcome Alike (read source) (read source') := by
  have hforeign : Foreign ['=', '>'] := ⟨⟨'=', '>', _, rfl, by decide⟩, forall_of_all (by decide)⟩
  rw [read, read]
  rcases rel_cases (cutAt_alike hforeign (List.forall_mem_nil _) h) with
    ⟨hcut, hcut'⟩ | ⟨_, _, hcut, hcut', -, hguard, hbody⟩
  · rw [hcut, hcut']
    exact .error _ _
  · rw [hcut, hcut']
    dsimp only
    have halike := cutGuardAfter_alike hguard.trim false false
    rw [cutGuard_eq, cutGuard_eq]
    rcases rel_cases halike with ⟨hcut, hcut'⟩ | ⟨_, _, hcut, hcut', -, hleft, hcomparison, hright⟩
    · simp only [List.isEmpty_nil, Bool.not_true, List.contains_nil, hcut, hcut']
      exact .error _ _
    · simp only [List.isEmpty_nil, Bool.not_true, List.contains_nil, hcut, hcut', Option.map_some, List.reverse_nil,
        List.nil_append]
      refine (Template.read_ofList_alike hleft.trim).bind fun left left' hleft => ?_
      refine (Template.read_ofList_alike hright.trim).bind fun right right' hright => ?_
      refine (Template.read_ofList_alike hbody.trim).bind fun body body' hbody => ?_
      exact .ok ⟨hleft, hcomparison, hright, hbody⟩

end Repartee.Condition
