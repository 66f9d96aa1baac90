/-
  Repartee.Proofs.Printing.Trees — replies written out.

  A list of pieces is written from left to right, each tag around what it holds. Not every list can
  be read back: two texts side by side become one, blanks around a value are dropped, a call ends at
  the first `</call>` and a redirect at the first closing brace in it. The lists that leave all this
  out are the well nested ones.

  Proved:
  - What is written of a well nested list is a text whose tags are all closed (`marked_pieces`), so
    no tag ends early.
  - Trimming leaves it as it is, if no blank text stands at its ends (`trim_printPieces`).
-/

import Repartee.Proofs.Lowercase
import Repartee.Proofs.Printing.Scans

namespace Repartee

open Text Template
open Unicode (isBlank)

/-! ## Writing -/

def MathOp.word : MathOp → String
  | .add => "add"
  | .sub => "sub"
  | .mult => "mult"
  | .div => "div"

def Recase.word : Recase → String
  | .sentence => "sentence"
  | .formal => "formal"
  | .upper => "uppercase"
  | .lower => "lowercase"

theorem Recase.word_injective {r r' : Recase} (h : r.word = r'.word) : r = r' := by
  cases r
  all_goals
    cases r'
    all_goals first
      | rfl
      | exact absurd h (by decide)

namespace Template

/-- A tag in angle brackets. -/
def angled (word : String) (args : List Char) : List Char := '<' :: (word.toList ++ ' ' :: args) ++ ['>']

def indexed (word : String) (index : Nat) : List Char := angled word (Nat.toDigits 10 index)

def assigned (word name : String) (value : List Char) : List Char := angled word (name.toList ++ '=' :: value)

/-- A tag that reaches to the next closing brace. -/
def braced (start : String) (inside : List Char) : List Char := start.toList ++ inside ++ ['}']

def blocked (name : String) (body : List Char) : List Char := openingOf name ++ body ++ closingOf name

end Template

mutual

def Piece.printed : Piece → List Char
  | .text s => s.toList
  | .star index => indexed "star" index
  | .botStar index => indexed "botstar" index
  | .input index => indexed "input" index
  | .reply index => indexed "reply" index
  | .get name => angled "get" name.toList
  | .bot name => angled "bot" name.toList
  | .env name => angled "env" name.toList
  | .userId => "<id>".toList
  | .set name value => assigned "set" name (printPieces value)
  | .math op name operand => assigned op.word name (printPieces operand)
  | .topic name => braced "\x7btopic=" name.toList
  | .call line => callOpening ++ printPieces line ++ callClosing
  | .redirect target => braced "\x7b@" (printPieces target)
  | .random alternatives => blocked "random" (printAlternatives alternatives)
  | .recase r body => blocked r.word (printPieces body)

def printPieces : List Piece → List Char
  | [] => []
  | p :: ps => p.printed ++ printPieces ps

def printAlternatives : List (List Piece) → List Char
  | [] => []
  | [ps] => printPieces ps
  | ps :: qs :: alternatives => printPieces ps ++ '|' :: printAlternatives (qs :: alternatives)

end

/-- A reply as it is written. -/
def Template.printed (ps : List Piece) : String := .ofList (printPieces ps)

/-- The tag that gives a reply its weight. -/
def Template.weightMark (weight : Nat) : String := .ofList (braced "\x7bweight=" (Nat.toDigits 10 weight))

/-! ## Well nested pieces -/

def Piece.isText : Piece → Bool
  | .text _ => true
  | _ => false

/-- A text with a blank at its beginning. -/
def Piece.startsBlank : Piece → Bool
  | .text s => s.toList.head?.any isBlank
  | _ => false

/-- A text with a blank at its end. -/
def Piece.endsBlank : Piece → Bool
  | .text s => s.toList.getLast?.any isBlank
  | _ => false

/-- No blank stands at either end. -/
structure Tight (ps : List Piece) : Prop where
  first : ∀ p ∈ ps.head?, p.startsBlank = false
  last : ∀ p ∈ ps.getLast?, p.endsBlank = false

instance (ps : List Piece) : Decidable (Tight ps) :=
  decidable_of_iff ((∀ p ∈ ps.head?, p.startsBlank = false) ∧ ∀ p ∈ ps.getLast?, p.endsBlank = false)
    ⟨fun h => ⟨h.1, h.2⟩, fun h => ⟨h.first, h.last⟩⟩

mutual

/-- A piece that is read back as it is written. The flags say whether calls, and tags in braces, may stand at its
place: at no depth does a call stand in a call or a tag in braces in a redirect. Indices have 64 bits. -/
def Piece.WellNested (calls braces : Bool) : Piece → Prop
  | .text s => s.toList ≠ [] ∧ s.toList.all isPlain = true
  | .star index | .botStar index | .input index | .reply index => index < Decimal.bound64
  | .get name | .bot name | .env name => isIdentifier name.toList = true
  | .userId => True
  | .set name value => isIdentifier name.toList = true ∧ Tight value ∧ wellNested calls braces value
  | .math _ name operand => isIdentifier name.toList = true ∧ Tight operand ∧ wellNested calls braces operand
  | .topic name => braces = true ∧ name.toList.all isPlain = true ∧ trim name.toList = name.toList ∧
      lower name.toList = name.toList
  | .call line => calls = true ∧ Tight line ∧ wellNested false braces line
  | .redirect target => braces = true ∧ Tight target ∧ wellNested calls false target
  | .random alternatives => braces = true ∧ 2 ≤ alternatives.length ∧ alternativesWellNested calls braces alternatives
  | .recase _ body => braces = true ∧ wellNested calls braces body

/-- Pieces that are read back as they are written. No text stands beside another. -/
def wellNested (calls braces : Bool) : List Piece → Prop
  | [] => True
  | p :: ps => p.WellNested calls braces ∧ (p.isText && ps.head?.any Piece.isText) = false ∧ wellNested calls braces ps

def alternativesWellNested (calls braces : Bool) : List (List Piece) → Prop
  | [] => True
  | ps :: alternatives => wellNested calls braces ps ∧ alternativesWellNested calls braces alternatives

end

/-! ## Names -/

namespace Template

/-- What is no identifier by itself stands in none. -/
theorem not_mem_of_isIdentifier {cs : List Char} {c : Char} (h : isIdentifier cs = true) (hc : isIdentifier [c] = false) :
    c ∉ cs := by
  intro hmem
  rw [isIdentifier, Bool.and_eq_true, List.all_eq_true] at h
  have hchar := h.2 c hmem
  rw [isIdentifier, List.all_cons, hchar] at hc
  cases hc

theorem isPlain_of_isIdentifier {cs : List Char} (h : isIdentifier cs = true) : ∀ c ∈ cs, isPlain c = true := by
  have hmarks : ∀ c ∈ markChars, isIdentifier [c] = false := forall_of_all (by decide)
  intro c hc
  rw [isPlain, Bool.not_eq_true', List.contains_eq_mem, decide_eq_false_iff_not]
  exact fun hmem => not_mem_of_isIdentifier h (hmarks c hmem) hc

theorem isIdentifier_toDigits (n : Nat) : isIdentifier (Nat.toDigits 10 n) = true := by
  have hchar : ∀ c : Char, c.isDigit = true → Unicode.isAlphanumeric c = true := by
    intro c hc
    have hrange : 0x30 ≤ c.toNat ∧ c.toNat ≤ 0x39 := by
      rw [Char.isDigit, Bool.and_eq_true, decide_eq_true_eq, decide_eq_true_eq] at hc
      exact hc
    have hdigits : ∀ n < 10, Unicode.numberRanges.covers (0x30 + n) = true := by decide
    have hnumber := hdigits (c.toNat - 0x30) (by omega)
    rw [Nat.add_sub_cancel' hrange.1] at hnumber
    change (Unicode.isAlphabetic c || Unicode.numberRanges.covers c.toNat) = true
    rw [hnumber, Bool.or_true]
  rw [isIdentifier, Bool.and_eq_true, Bool.not_eq_true', List.isEmpty_eq_false_iff, List.all_eq_true]
  refine ⟨Nat.toDigits_ne_nil, fun c hc => ?_⟩
  rw [hchar c (Nat.isDigit_of_mem_toDigits (by decide) (by decide) hc), Bool.true_or, Bool.true_or, Bool.true_or]

theorem isIdentifier_of_isBlank {c : Char} (h : isBlank c = true) : isIdentifier [c] = false := by
  have hmarks : ∀ mark ∈ ['_', '-', '.'], isBlank mark = false := by simp [isBlank]
  have hne : ∀ mark ∈ ['_', '-', '.'], (c == mark) = false := fun mark hmark => by
    rw [beq_eq_false_iff_ne]
    rintro rfl
    cases h.symm.trans (hmarks c hmark)
  simp [isIdentifier, Unicode.isAlphanumeric_of_isBlank h, hne]

theorem not_blank_of_isIdentifier {name : List Char} (h : isIdentifier name = true) : ∀ c ∈ name, isBlank c = false := by
  intro c hc
  cases hblank : isBlank c with
  | false => rfl
  | true => exact absurd hc (not_mem_of_isIdentifier h (isIdentifier_of_isBlank hblank))

/-! ## Closed tags -/

section Marks

variable {bars calls braces : Bool}

theorem Marked.of_forall {l : List Char} (h : ∀ c ∈ l, isPlain c = true) : Marked bars calls braces l := by
  induction l with
  | nil => exact .nil
  | cons c l ih =>
    obtain ⟨hc, hl⟩ := List.forall_mem_cons.mp h
    exact .append (.plain hc) (ih hl)

/-- The words that tags in angle brackets begin with. -/
def angledWords : List String :=
  ["star", "botstar", "input", "reply", "get", "bot", "env", "set", "add", "sub", "mult", "div"]

theorem mathWord_mem (op : MathOp) : op.word ∈ angledWords := by
  cases op <;> decide

theorem recaseWord_mem (r : Recase) : r.word ∈ blockNames := by
  cases r <;> decide

/-- They are words like names, and none begins like a call. -/
theorem angledWord_chars {word : String} (h : word ∈ angledWords) :
    isIdentifier word.toList = true ∧ word.toList.head? ≠ some 'c' := by
  revert word
  decide +kernel

theorem marked_angled {word : String} {args : List Char} (hword : word ∈ angledWords)
    (hargs : Marked false calls braces args) : Marked bars calls braces (angled word args) := by
  have hname := (angledWord_chars hword).1
  rw [angled]
  cases hlist : word.toList with
  | nil =>
    rw [hlist] at hname
    cases hname
  | cons c cs =>
    rw [hlist] at hname
    have hplain := List.forall_mem_cons.mp (isPlain_of_isIdentifier hname)
    have hslash : c ≠ '/' := by
      rintro rfl
      exact not_mem_of_isIdentifier hname (by decide) List.mem_cons_self
    have hinside : Marked false calls braces (cs ++ ([' '] ++ args)) :=
      .append (.of_forall hplain.2) (.append (.plain (by decide)) hargs)
    have h : Marked bars calls braces (['<', c] ++ (cs ++ ([' '] ++ args)) ++ ['>']) := .angled hplain.1 hslash hinside
    exact h

theorem marked_indexed {word : String} (hword : word ∈ angledWords) (index : Nat) :
    Marked bars calls braces (indexed word index) :=
  marked_angled hword (.of_forall (isPlain_of_isIdentifier (isIdentifier_toDigits index)))

theorem marked_named {word name : String} (hword : word ∈ angledWords) (hname : isIdentifier name.toList = true) :
    Marked bars calls braces (angled word name.toList) :=
  marked_angled hword (.of_forall (isPlain_of_isIdentifier hname))

theorem marked_assigned {word name : String} {value : List Char} (hword : word ∈ angledWords)
    (hname : isIdentifier name.toList = true) (hvalue : Marked false calls braces value) :
    Marked bars calls braces (assigned word name value) := by
  have heq : Marked false calls braces (['='] ++ value) := .append (.plain (by decide)) hvalue
  exact marked_angled hword (.append (.of_forall (isPlain_of_isIdentifier hname)) heq)

end Marks

end Template

mutual

theorem Piece.WellNested.marked {bars calls braces : Bool} {p : Piece} (h : p.WellNested calls braces) :
    Marked bars calls braces p.printed := by
  cases p with
  | text s => exact .of_forall (List.all_eq_true.mp h.2)
  | star index | botStar index | input index | reply index => exact marked_indexed (by decide) index
  | get name | bot name | env name => exact marked_named (by decide) h
  | userId => exact .angled (by decide) (by decide) (.plain (by decide))
  | set name value => exact marked_assigned (by decide) h.1 (marked_pieces h.2.2)
  | math op name operand => exact marked_assigned (mathWord_mem op) h.1 (marked_pieces h.2.2)
  | topic name =>
    obtain ⟨rfl, hplain, -⟩ := h
    exact .braced (by decide) (.of_forall (List.all_eq_true.mp hplain))
  | call line =>
    obtain ⟨rfl, -, hline⟩ := h
    exact .call (marked_pieces hline)
  | redirect target =>
    obtain ⟨rfl, -, htarget⟩ := h
    exact .braced (by decide) (marked_pieces htarget)
  | random alternatives =>
    obtain ⟨rfl, -, halternatives⟩ := h
    exact .block (by decide) (marked_alternatives halternatives)
  | recase r body =>
    obtain ⟨rfl, hbody⟩ := h
    exact .block (recaseWord_mem r) (marked_pieces hbody)

theorem marked_pieces {bars calls braces : Bool} {ps : List Piece} (h : wellNested calls braces ps) :
    Marked bars calls braces (printPieces ps) := by
  cases ps with
  | nil => exact .nil
  | cons p ps => exact .append h.1.marked (marked_pieces h.2.2)

theorem marked_alternatives {calls braces : Bool} {alternatives : List (List Piece)}
    (h : alternativesWellNested calls braces alternatives) : Marked true calls braces (printAlternatives alternatives) := by
  cases alternatives with
  | nil => exact .nil
  | cons ps alternatives =>
    cases alternatives with
    | nil => exact marked_pieces h.1
    | cons qs alternatives => exact .append (marked_pieces h.1) (.append .bar (marked_alternatives h.2))

end

/-! ## Blanks -/

/-- A variable and the value it is set to are no arguments that trimming shortens. -/
theorem Template.trim_assignment {name value : List Char} (hname : isIdentifier name = true) (hvalue : trim value = value) :
    trim (name ++ '=' :: value) = name ++ '=' :: value := by
  refine trim_of_ends (fun c hc => ?_) (fun c hc => ?_)
  · cases name with
    | nil => cases hname
    | cons d ds =>
      cases hc
      exact not_blank_of_isIdentifier hname _ List.mem_cons_self
  · rw [List.getLast?_append, List.getLast?_cons] at hc
    cases hlast : value.getLast? with
    | none =>
      rw [hlast] at hc
      cases hc
      decide
    | some d =>
      rw [hlast] at hc
      cases hc
      exact isBlank_of_getLast?_trim (hvalue.symm ▸ hlast)

theorem Template.blocked_eq (name : String) (body : List Char) :
    blocked name body = '{' :: (name.toList ++ '}' :: (body ++ '{' :: '/' :: name.toList) ++ ['}']) := by
  rw [blocked, openingOf_eq, closingOf_eq]
  simp only [List.cons_append, List.append_assoc, List.nil_append]

/-- A tag stands between brackets or braces. -/
theorem Piece.printed_of_tag {p : Piece} (h : p.isText = false) :
    (∃ cs, p.printed = '<' :: (cs ++ ['>'])) ∨ ∃ cs, p.printed = '{' :: (cs ++ ['}']) := by
  cases p with
  | text s => cases h
  | star index | botStar index | input index | reply index => exact .inl ⟨_, rfl⟩
  | get name | bot name | env name => exact .inl ⟨_, rfl⟩
  | userId => exact .inl ⟨['i', 'd'], rfl⟩
  | set name value | math op name operand => exact .inl ⟨_, rfl⟩
  | call line =>
    refine .inl ⟨"call>".toList ++ printPieces line ++ "</call".toList, ?_⟩
    rw [List.append_assoc]
    rfl
  | topic name => exact .inr ⟨_, rfl⟩
  | redirect target => exact .inr ⟨_, rfl⟩
  | random alternatives => exact .inr ⟨_, blocked_eq _ _⟩
  | recase r body => exact .inr ⟨_, blocked_eq _ _⟩

/-- A piece begins with a blank if it is a text that does. -/
theorem Piece.head?_printed {calls braces : Bool} {p : Piece} (h : p.WellNested calls braces) (hfirst : p.startsBlank = false) :
    ∃ c, p.printed.head? = some c ∧ isBlank c = false := by
  cases htext : p.isText with
  | false =>
    rcases printed_of_tag htext with ⟨cs, hprinted⟩ | ⟨cs, hprinted⟩
    · exact ⟨'<', by rw [hprinted, List.head?_cons], by decide⟩
    · exact ⟨'{', by rw [hprinted, List.head?_cons], by decide⟩
  | true =>
    cases p with
    | text s =>
      obtain ⟨c, hc⟩ := Option.ne_none_iff_exists'.mp fun hnone => h.1 (List.head?_eq_none_iff.mp hnone)
      rw [startsBlank, hc] at hfirst
      exact ⟨c, hc, hfirst⟩
    | _ => cases htext

/-- A piece ends with a blank if it is a text that does. -/
theorem Piece.getLast?_printed {calls braces : Bool} {p : Piece} (h : p.WellNested calls braces) (hlast : p.endsBlank = false) :
    ∃ c, p.printed.getLast? = some c ∧ isBlank c = false := by
  cases htext : p.isText with
  | false =>
    rcases printed_of_tag htext with ⟨cs, hprinted⟩ | ⟨cs, hprinted⟩
    · exact ⟨'>', by rw [hprinted, ← List.cons_append, List.getLast?_concat], by decide⟩
    · exact ⟨'}', by rw [hprinted, ← List.cons_append, List.getLast?_concat], by decide⟩
  | true =>
    cases p with
    | text s =>
      obtain ⟨c, hc⟩ := Option.ne_none_iff_exists'.mp fun hnone => h.1 (List.getLast?_eq_none_iff.mp hnone)
      rw [endsBlank, hc] at hlast
      exact ⟨c, hc, hlast⟩
    | _ => cases htext

section Ends

variable {calls braces : Bool} {ps qs : List Piece}

theorem printPieces_append (ps qs : List Piece) : printPieces (ps ++ qs) = printPieces ps ++ printPieces qs := by
  induction ps with
  | nil => rfl
  | cons p ps ih => rw [List.cons_append, printPieces, ih, printPieces, List.append_assoc]

theorem wellNested_of_mem (h : wellNested calls braces ps) {p : Piece} (hp : p ∈ ps) : p.WellNested calls braces := by
  induction ps with
  | nil => cases hp
  | cons q ps ih =>
    rcases List.mem_cons.mp hp with rfl | hp
    · exact h.1
    · exact ih h.2.2 hp

theorem trim_printPieces (h : wellNested calls braces ps) (htight : Tight ps) : trim (printPieces ps) = printPieces ps := by
  refine trim_of_ends (fun c hc => ?_) (fun c hc => ?_)
  · cases ps with
    | nil => cases hc
    | cons p ps =>
      obtain ⟨d, hd, hblank⟩ := Piece.head?_printed h.1 (htight.first p rfl)
      rw [printPieces, List.head?_append, hd] at hc
      cases hc
      exact hblank
  · rcases List.eq_nil_or_concat ps with rfl | ⟨front, p, rfl⟩
    · cases hc
    · rw [List.concat_eq_append] at h htight hc
      have hp := wellNested_of_mem h (List.mem_append_right front List.mem_cons_self)
      obtain ⟨d, hd, hblank⟩ := Piece.getLast?_printed hp (htight.last p List.getLast?_concat)
      rw [printPieces_append, printPieces, printPieces, List.append_nil, List.getLast?_append, hd] at hc
      cases hc
      exact hblank

end Ends

end Repartee
