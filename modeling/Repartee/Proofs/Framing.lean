/-
  Repartee.Proofs.Framing — where an object ends.

  The lines of an object are not rule lines: they are its code, whatever they say, up to the line that ends
  it. A line that ends a topic or a begin block is told by the first word after its `<`. An object ends at
  a line that begins with `< object`, so a longer word ends it too, and other blanks after the `<` do not.

  Proved:
  - The lines up to the one that ends an object are its code, and the reader goes on after that one
    (`readLines_object`, `framed_of_opening`).
  - So it is for lines told by their first word, if the first line that either reading takes for the end is
    one by both (`object_framed`).
  - An object ends at a line of its code, and another one does not end
    (`an_object_ends_at_a_longer_word`).
-/

import Repartee.Proofs.Statements.Lines

namespace Repartee.Script

open Text

/-! ## The end of a block -/

/-- Whether a line ends a block of this kind: the kind is the first word after its `<`. -/
def endsBlock (kind : String) (raw : List Char) : Bool :=
  match trim raw with
  | '<' :: body => ((words body).map String.ofList).head? = some kind
  | _ => false

/-- The first of the lines that either takes for an end is an end by both. -/
def AgreeOn (ends ends' : List Char → Bool) (raws : List (List Char)) : Prop :=
  ∀ raw ∈ raws.find? (fun raw => ends raw || ends' raw), ends raw = true ∧ ends' raw = true

instance (ends ends' : List Char → Bool) (raws : List (List Char)) : Decidable (AgreeOn ends ends' raws) :=
  inferInstanceAs (Decidable (∀ raw ∈ raws.find? (fun raw => ends raw || ends' raw), ends raw = true ∧ ends' raw = true))

/-- Lines as code, each with a line feed at its end. -/
def codeOf (raws : List (List Char)) : String := .ofList (raws.flatMap (· ++ ['\n']))

theorem codeOf_cons (raw : List Char) (raws : List (List Char)) :
    codeOf (raw :: raws) = .ofList (raw ++ ['\n']) ++ codeOf raws := by
  rw [codeOf, codeOf, List.flatMap_cons, String.ofList_append]

/-- The reader in an object. -/
def Reader.enter (r : Reader) (o : Object) : Reader := { r with mode := .object o }

/-- The reader after an object. -/
def Reader.add (r : Reader) (o : Object) : Reader :=
  { r with mode := .rules, script := { r.script with objects := r.script.objects ++ [o] } }

/-- The lines of a text get to one that opens an object, and what waits there is carried out. -/
structure Opening (strict : Bool) (origin text : String) (before : List (List Char)) (raw : List Char)
    (rest : List (List Char)) (r : Reader) (o : Object) : Prop where
  lines : linesIn text = before ++ raw :: rest
  reached : ∃ q, ({ strict, script := { origin } } : Reader).readLines 1 before = .ok q ∧ q.mode = .rules ∧ q.flush = .ok r
  header : ∃ body language more, trim raw = '>' :: body ∧
    (words body).map String.ofList = "object" :: o.name :: language :: more ∧ o.language = lowercase language
  code : o.code = ""
  line : o.line = before.length + 1

/-- The lines up to the first one that ends the object are its code, and the text is read on after that one. Without
such a line the text fails. -/
structure Framed (ends : List Char → Bool) (r : Reader) (o : Object) (rest : List (List Char))
    (result : Except SyntaxError Script) : Prop where
  closed : ∀ code close later, rest = code ++ close :: later → (∀ raw ∈ code, ends raw = false) → ends close = true →
    result = (r.add { o with code := codeOf code }).readLines (o.line + code.length + 2) later >>= Reader.finish
  unclosed : (∀ raw ∈ rest, ends raw = false) → result = .error ⟨o.line, .unclosedObject o.name⟩

/-- What ends an object by one reading does so by the other. -/
theorem Framed.congr {ends ends' : List Char → Bool} {r : Reader} {o : Object} {rest : List (List Char)}
    {result : Except SyntaxError Script} (h : Framed ends r o rest result) (hagree : AgreeOn ends ends' rest) :
    Framed ends' r o rest result := by
  -- A line that `ends` takes for the end comes after one that `ends'` does.
  have hstop : ∀ {raws : List (List Char)}, (∀ raw ∈ raws.find? (fun raw => ends raw || ends' raw), ends' raw = true) →
      (∀ raw ∈ raws, ends' raw = false) → ∀ raw ∈ raws, (ends raw || ends' raw) = false := by
    intro raws hfirst hnone raw hraw
    cases hfind : raws.find? (fun raw => ends raw || ends' raw) with
    | none => simpa using List.find?_eq_none.mp hfind raw hraw
    | some first =>
      have hfalse := hnone first (List.mem_of_find?_eq_some hfind)
      rw [hfirst first hfind] at hfalse
      cases hfalse
  constructor
  · intro code close later hrest hcode hclose
    subst hrest
    have hquiet : ∀ raw ∈ code, (ends raw || ends' raw) = false := by
      refine hstop ?_ hcode
      intro raw hraw
      refine (hagree raw ?_).2
      rw [List.find?_append, hraw]
      rfl
    have hfound : (code ++ close :: later).find? (fun raw => ends raw || ends' raw) = some close := by
      rw [List.find?_append, List.find?_eq_none.mpr (by simpa using hquiet), Option.none_or,
        List.find?_cons_of_pos (by simp [hclose])]
    refine h.closed code close later rfl ?_ (hagree close hfound).1
    intro raw hraw
    exact (Bool.or_eq_false_iff.mp (hquiet raw hraw)).1
  · intro hrest
    apply h.unclosed
    intro raw hraw
    have hquiet := hstop (fun first hfirst => (hagree first hfirst).2) hrest raw hraw
    exact (Bool.or_eq_false_iff.mp hquiet).1

namespace Reader

variable {r r' q : Reader} {line : Nat} {raw body : List Char} {o : Object} {name language : String} {more : List String}

/-! ## Reading an object -/

/-- Lines that do not end an object are added to its code. -/
theorem readLines_object {code : List (List Char)} (hcode : ∀ raw ∈ code, closesObject raw = false) :
    (r.enter o).readLines line code = .ok (r.enter { o with code := o.code ++ codeOf code }) := by
  induction code generalizing o line with
  | nil => simp [readLines, codeOf]
  | cons raw code ih =>
    obtain ⟨hraw, hrest⟩ := List.forall_mem_cons.mp hcode
    have hphysical : (r.enter o).physicalLine line raw = .ok (r.enter { o with code := o.code ++ .ofList (raw ++ ['\n']) }) := by
      simp [enter, physicalLine, objectLine, hraw]
    rw [readLines, hphysical, codeOf_cons, ← String.append_assoc]
    exact ih hrest

theorem physicalLine_closes (h : closesObject raw = true) : (r.enter o).physicalLine line raw = .ok (r.add o) := by
  simp [enter, physicalLine, objectLine, h, add]

/-- A line that opens an object carries out what waits. -/
theorem physicalLine_opens (hmode : q.mode = .rules) (htrim : trim raw = '>' :: body)
    (hwords : (words body).map String.ofList = "object" :: name :: language :: more) (hflush : q.flush = .ok r) :
    q.physicalLine line raw = .ok (r.enter { name, language := lowercase language, code := "", line }) := by
  have hrule : ruleLine? line ('>' :: body) = some ⟨'>', trim body, line⟩ := by simp [ruleLine?, startsWith, after?]
  have hobject : object? ⟨'>', trim body, line⟩ = some { name, language := lowercase language, code := "", line } :=
    object?_eq_some_iff.mpr ⟨rfl, name, language, more, by rw [words_trim, hwords], rfl⟩
  simp only [physicalLine, hmode, htrim, ruleLine_eq hmode, hrule, Char.reduceEq, if_false, command, true_or, if_true, hflush]
  exact act_of_object? hobject

end Reader

open Reader

variable {strict : Bool} {origin text : String} {before rest : List (List Char)} {raw : List Char} {r : Reader} {o : Object}

/-- An object ends at the first line that begins with `< object`. -/
theorem framed_of_opening (h : Opening strict origin text before raw rest r o) :
    Framed closesObject r o rest (read strict origin text) := by
  obtain ⟨q, hbefore, hmode, hflush⟩ := h.reached
  obtain ⟨body, language, more, htrim, hwords, hlanguage⟩ := h.header
  have hopens : q.physicalLine (1 + before.length) raw = .ok (r.enter o) := by
    rw [physicalLine_opens hmode htrim hwords hflush, Nat.add_comm 1, ← h.line, ← hlanguage, ← h.code]
  have hread : read strict origin text = (r.enter o).readLines (o.line + 1) rest >>= finish := by
    change (({ strict, script := { origin } } : Reader).readLines 1 (linesIn text) >>= finish) = _
    rw [h.lines, readLines_append, hbefore]
    change (q.readLines (1 + before.length) (raw :: rest) >>= finish) = _
    rw [readLines, hopens, h.line, Nat.add_comm 1]
    rfl
  constructor
  · intro code close later hrest hcode hclose
    rw [hread, hrest, readLines_append, readLines_object hcode, h.code, String.empty_append]
    change ((r.enter { o with code := codeOf code }).readLines (o.line + 1 + code.length) (close :: later) >>= finish) = _
    have hnext : o.line + 1 + code.length + 1 = o.line + code.length + 2 := by omega
    rw [readLines, physicalLine_closes hclose, hnext]
    rfl
  · intro hrest
    have hnone : r.pending = none := waits_flush hflush
    have hidle : (r.enter { o with code := o.code ++ codeOf rest }).pending = none := hnone
    rw [hread, readLines_object hrest]
    change finish _ = _
    rw [finish, flush_idle hidle]
    rfl

/-- Topics and begin blocks end at the lines that their kind says. -/
theorem closingOf_iff {raw body : List Char} (h : trim raw = '<' :: body) :
    (closingOf (trim body) = .closeTopic ↔ endsBlock "topic" raw = true) ∧
      (closingOf (trim body) = .closeBegin ↔ endsBlock "begin" raw = true) := by
  have hends : ∀ kind, endsBlock kind raw = decide (((words body).map String.ofList).head? = some kind) := by
    intro kind
    simp only [endsBlock, h]
  rw [closingOf, words_trim, hends, hends]
  cases (words body).map String.ofList with
  | nil => simp
  | cons kind header =>
    by_cases htopic : kind = "topic"
    · simp [htopic]
    · by_cases hbegin : kind = "begin"
      · simp [hbegin]
      · simp [htopic, hbegin]

theorem closesObject_iff {raw : List Char} : closesObject raw = true ↔ "< object".toList <+: trimStart raw := after?_isSome_iff

/-- An object has the lines up to the first one that begins with `< object` as its code. That is the line that ends the
block, as its first word tells for other blocks, unless a longer word or other blanks make a line an end by one reading only. -/
theorem object_framed (h : Opening strict origin text before raw rest r o) :
    (Framed closesObject r o rest (read strict origin text) ∧
      ∀ raw, closesObject raw = true ↔ "< object".toList <+: trimStart raw) ∧
    (AgreeOn closesObject (endsBlock "object") rest → Framed (endsBlock "object") r o rest (read strict origin text)) ∧
    ∀ raw body, trim raw = '<' :: body →
      (closingOf (trim body) = .closeTopic ↔ endsBlock "topic" raw = true) ∧
      (closingOf (trim body) = .closeBegin ↔ endsBlock "begin" raw = true) :=
  ⟨⟨framed_of_opening h, fun _ => closesObject_iff⟩, (framed_of_opening h).congr, fun _ _ => closingOf_iff⟩

/-- The lines before the object are a trigger, and its code has lines that look like others. -/
theorem object_framed_after_trigger :
    let text := "+ hi\n- yo\n > object a JS\n+ code\n  < topic\n < object a\n+ b\n- c"
    let before := ["+ hi".toList, "- yo".toList]
    let rest := ["+ code".toList, "  < topic".toList, " < object a".toList, "+ b".toList, "- c".toList]
    let o : Object := { name := "a", language := "js", code := "", line := 3 }
    ∃ r, Opening false "x" text before " > object a JS".toList rest r o ∧ AgreeOn closesObject (endsBlock "object") rest ∧
      Framed (endsBlock "object") r o rest (read false "x" text) ∧
      ∃ script, read false "x" text = .ok script ∧ script.objects = [{ o with code := "+ code\n  < topic\n" }] := by
  intro text before rest o
  obtain ⟨q, hq, hmode, hflush⟩ : ∃ q, ({ strict := false, script := { origin := "x" } } : Reader).readLines 1 before = .ok q ∧
      q.mode = .rules ∧ q.flush.toOption.any (fun _ => true) = true := exists_ok_of_any (by decide +kernel)
  obtain ⟨r, hr, -⟩ := exists_ok_of_any (p := fun _ => True) hflush
  have hopening : Opening false "x" text before " > object a JS".toList rest r o :=
    { lines := by decide +kernel
      reached := ⟨q, hq, hmode, hr⟩
      header := ⟨" object a JS".toList, "JS", [], by decide +kernel, by decide +kernel, by decide +kernel⟩
      code := rfl
      line := rfl }
  have hagree : AgreeOn closesObject (endsBlock "object") rest := by decide +kernel
  exact ⟨r, hopening, hagree, (object_framed hopening).2.1 hagree, exists_ok_of_any (by decide +kernel)⟩

/-- A line of code that begins with a longer word ends the object, and the line that should end it is passed over.
Without the blank no line ends it. -/
theorem an_object_ends_at_a_longer_word :
    let longer := "> object a b\n< objects\n< object"
    let tight := "> object a b\nx\n<object"
    (linesIn longer = ["> object a b".toList, "< objects".toList, "< object".toList] ∧
      endsBlock "object" "< objects".toList = false ∧ endsBlock "object" "< object".toList = true ∧
      ∃ script, read false "x" longer = .ok script ∧ script.objects = [{ name := "a", language := "b", code := "", line := 1 }]) ∧
    linesIn tight = ["> object a b".toList, "x".toList, "<object".toList] ∧
      endsBlock "object" "x".toList = false ∧ endsBlock "object" "<object".toList = true ∧
      read false "x" tight = .error ⟨1, .unclosedObject "a"⟩ := by
  intro longer tight
  refine ⟨⟨by decide +kernel, by decide +kernel, by decide +kernel, exists_ok_of_any (by decide +kernel)⟩, ?_⟩
  refine ⟨by decide +kernel, by decide +kernel, by decide +kernel, by decide +kernel⟩

end Repartee.Script
