/-
  Repartee.Pattern.Reader — compiling a trigger.

  Weight tags are lifted out first; the first one counts. No other braces and no angle brackets
  may be left. The rest is cut into parts from the left: groups in round or square brackets,
  and words between blanks. A word is a wildcard if it is one sigil; with a sigil among other
  characters it is refused; otherwise it is stripped, and dropped if nothing remains. A group
  lists alternatives between bars or names an array. Of two faults the one further left is
  reported.
-/

import Repartee.Decimal.Reading
import Repartee.Dict
import Repartee.Lexicon
import Repartee.Pattern.Basic
import Repartee.RuleFault

namespace Repartee.Pattern

open Text

/-! ## Weights and tags -/

def weightOpening : List Char := "\x7bweight=".toList

/-- A weight as written, if it is one. -/
def weight? (value : List Char) : Option Nat := Decimal.natural Decimal.bound32 (trim value)

/-- The weight tag that begins the text: what it holds, and the text after it. -/
def weightTag? (cs : List Char) : Option (List Char × List Char) :=
  (after? weightOpening cs).bind (cutOnce (· == '}'))

theorem weightTag?_length {cs value rest : List Char} (h : weightTag? cs = some (value, rest)) :
    rest.length < cs.length := by
  simp only [weightTag?, Option.bind_eq_some_iff] at h
  obtain ⟨body, hb, hc⟩ := h
  have := after?_length hb
  have := cutOnce_length hc
  omega

/-- The text with a space for each weight tag, and what the tags hold. -/
def liftWeights : List Char → List Char × List (List Char)
  | [] => ([], [])
  | c :: cs =>
    match _h : weightTag? (c :: cs) with
    | some (value, rest) =>
      let (text, values) := liftWeights rest
      (' ' :: text, trim value :: values)
    | none =>
      let (text, values) := liftWeights cs
      (c :: text, values)
termination_by cs => cs.length
decreasing_by
  · exact weightTag?_length _h
  · simp

/-- The characters that only tags use. -/
def isTagMark (c : Char) : Bool := c == '{' || c == '}' || c == '<' || c == '>'

/-- The text up to and with the first `close`, or all of it. -/
def upTo (close : Char) : List Char → List Char
  | [] => []
  | c :: cs => if c = close then [c] else c :: upTo close cs

/-- The first thing in the text that looks like a tag. -/
def firstTag? (cs : List Char) : Option (List Char) :=
  match cs.dropWhile (!isTagMark ·) with
  | [] => none
  | c :: rest =>
    if c = '{' then some (c :: upTo '}' rest)
    else if c = '<' then some (c :: upTo '>' rest)
    else some [c]

/-! ## Parts -/

inductive Part where
  | word (cs : List Char)
  | group (square : Bool) (body : List Char)
  /-- A bracket without its partner; nothing after it is read. -/
  | unbalanced (bracket : Char)
  deriving DecidableEq, Repr

def isBracket (c : Char) : Bool := c == '(' || c == ')' || c == '[' || c == ']'

/-- The body of a group and what follows it; a group holds no other bracket. -/
def groupBody? (close : Char) : List Char → Option (List Char × List Char)
  | [] => none
  | c :: cs =>
    if c = close then some ([], cs)
    else if isBracket c then none
    else (groupBody? close cs).map (prepend c)

theorem groupBody?_length {close : Char} {cs body rest : List Char}
    (h : groupBody? close cs = some (body, rest)) : rest.length < cs.length := by
  induction cs generalizing body with
  | nil => simp [groupBody?] at h
  | cons c cs ih =>
    simp only [groupBody?] at h
    split at h
    · simp only [Option.some.injEq, Prod.mk.injEq] at h
      simp [h.2]
    · split at h
      · simp at h
      · obtain ⟨b, hb, -⟩ := map_prepend_eq_some.mp h
        exact Nat.lt_succ_of_lt (ih hb)

/-- The word read so far, as a part. -/
def wordPart (word : List Char) : List Part := if word.isEmpty then [] else [.word word.reverse]

/-- Cut a text into parts; `word` holds the characters of the current word, last first. -/
def cutParts (word : List Char) : List Char → List Part
  | [] => wordPart word
  | c :: cs =>
    if Unicode.isBlank c then wordPart word ++ cutParts [] cs
    else if c = '(' ∨ c = '[' then
      match _h : groupBody? (if c = '(' then ')' else ']') cs with
      | some (body, rest) => wordPart word ++ .group (c = '[') body :: cutParts [] rest
      | none => wordPart word ++ [.unbalanced c]
    else if c = ')' then [.unbalanced '(']
    else if c = ']' then [.unbalanced '[']
    else cutParts (c :: word) cs
termination_by cs => cs.length
decreasing_by
  all_goals first
    | exact Nat.lt_succ_of_lt (groupBody?_length _h)
    | simp

/-! ## Items -/

/-- What a pattern refers to. -/
structure Scope where
  arrays : Dict (List String)
  lexicon : Lexicon

/-- The word of a trigger in the alphabet of messages; none if nothing of it is left. -/
def literal? (scope : Scope) (cs : List Char) : Option String :=
  let w := scope.lexicon.strip (.ofList cs)
  if w.isEmpty then none else some w

def wordItem? (scope : Scope) (text : String) (cs : List Char) : Except RuleFault (Option Item) :=
  match cs.find? isSigil with
  | some sigil =>
    match cs, Wildcard.ofSigil? sigil with
    | [_], some k => .ok (some (.wildcard k))
    | _, _ => .error (.embeddedWildcard sigil text)
  | none => .ok ((literal? scope cs).map .word)

/-- The alternatives of a group as written. -/
def alternatives (scope : Scope) (text : String) (body : List Char) :
    Except RuleFault (List (List Char)) :=
  match trim body with
  | '@' :: name =>
    let name := String.ofList (trim name)
    match scope.arrays.find? name with
    | some entries => .ok (entries.map String.toList)
    | none => .error (.unknownArray name text)
  | body => .ok ((fields (· == '|') body).map trim)

/-- The words of one alternative. -/
def alternativeWords (scope : Scope) (text : String) (alternative : List Char) :
    Except RuleFault (List String) :=
  match alternative.find? isSigil with
  | some sigil => .error (.embeddedWildcard sigil text)
  | none => .ok ((Text.words alternative).filterMap (literal? scope))

/-- Keep the first of equal entries. -/
def distinct (alternatives : List (List String)) : List (List String) :=
  alternatives.foldl (fun kept a => if kept.contains a then kept else kept ++ [a]) []

def groupItem (scope : Scope) (text : String) (square : Bool) (body : List Char) :
    Except RuleFault Item := do
  let written ← alternatives scope text body
  let wordy := if square then written.filter (· ≠ ['*']) else written
  let alts ← wordy.mapM (alternativeWords scope text)
  let alts := distinct (alts.filter (!·.isEmpty))
  let open_ := if square && written.contains ['*'] then [OptionAlt.anyWords] else []
  if square then
    if alts.isEmpty && open_.isEmpty then .error (.emptyGroup text)
    else .ok (.optional (alts.map .words ++ open_))
  else if alts.isEmpty then .error (.emptyGroup text)
  else .ok (.choice alts)

def partItem? (scope : Scope) (text : String) : Part → Except RuleFault (Option Item)
  | .word cs => wordItem? scope text cs
  | .group square body => (groupItem scope text square body).map some
  | .unbalanced bracket => .error (.unbalanced bracket text)

/-- The items of the parts, in order. -/
def itemsOf (scope : Scope) (text : String) : List Part → Except RuleFault (List Item)
  | [] => .ok []
  | part :: parts => do
    let item ← partItem? scope text part
    let items ← itemsOf scope text parts
    .ok (item.toList ++ items)

/-- The value of the first weight; all of them must be weights. -/
def firstWeight (text : String) (values : List (List Char)) : Except RuleFault Nat := do
  let weights ← values.mapM fun value =>
    match weight? value with
    | some w => .ok w
    | none => .error (.badWeight (.ofList value) text)
  .ok (weights.headD 0)

def compile (scope : Scope) (source : String) : Except RuleFault Pattern := do
  let cs := trim source.toList
  let text := String.ofList cs
  let (body, values) := liftWeights cs
  let weight ← firstWeight text values
  match firstTag? body with
  | some tag => .error (.unknownTag (.ofList tag) text)
  | none =>
    let items ← itemsOf scope text (cutParts [] body)
    if items.isEmpty then .error .emptyPattern else .ok { text, items, weight }

end Repartee.Pattern
