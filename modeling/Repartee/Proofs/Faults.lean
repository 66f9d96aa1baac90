/-
  Repartee.Proofs.Faults — tags that fail.

  A tag that names what is not there, or computes with what is no number, leaves a diagnostic in
  the place of its text. Some tags render a text first, which may do anything a template can: write
  the very variable that the tag updates, follow redirects, fail on its own account. Whether the
  tag fails is decided by the user and the text that this leaves.

  Proved:
  - What a failing tag does (`renderPiece_of_fails`), and what an update does that does not fail
    (`renderPiece_of_counts`).
  - What is rendered after a diagnostic comes to what it would come to without it
    (`exists_after_diagnosed`).
  - In a template, at any place and depth, a tag that fails is passed over with one diagnostic, and
    an update that does not fail changes its variable only (`failing_tags_are_skipped`).
-/

import Repartee.Proofs.Redirects
import Repartee.Proofs.Redrawing

namespace Repartee

/-! ## What can fail -/

/-- What a tag renders before it is played itself. -/
def Piece.operand : Piece → List Piece
  | .set _ value => value
  | .math _ _ operand => operand
  | .call line => line
  | .redirect target => target
  | .recase _ body => body
  | _ => []

/-- For this user, and with this text in the place of what it renders first, the tag cannot be played,
and that is what is wrong with it. -/
inductive Piece.Fails (s : Scene) (captures : Captures) (u : User) (operand : String) : Piece → Diagnostic → Prop
  | star {index : Nat} : ¬ (1 ≤ index ∧ index ≤ captures.stars.length) →
      Fails s captures u operand (.star index) (.starOutOfRange index captures.stars.length)
  | botStar {index : Nat} : ¬ (1 ≤ index ∧ index ≤ captures.botStars.length) →
      Fails s captures u operand (.botStar index) (.starOutOfRange index captures.botStars.length)
  | input {index : Nat} : ¬ (1 ≤ index ∧ index ≤ historySize) →
      Fails s captures u operand (.input index) (.historyOutOfRange index)
  | reply {index : Nat} : ¬ (1 ≤ index ∧ index ≤ historySize) →
      Fails s captures u operand (.reply index) (.historyOutOfRange index)
  | current {op : MathOp} {name : String} {value : List Piece} :
      Decimal.float? (Text.trimmed (Turn.currentText u name)) = none →
      Fails s captures u operand (.math op name value) (.notANumber name (Turn.currentText u name))
  | number {op : MathOp} {name : String} {value : List Piece} :
      (Decimal.float? (Text.trimmed (Turn.currentText u name))).isSome = true →
      Decimal.float? (Text.trimmed operand) = none →
      Fails s captures u operand (.math op name value) (.notANumber name operand)
  | zero {name : String} {value : List Piece} {divisor : Float} :
      (Decimal.float? (Text.trimmed (Turn.currentText u name))).isSome = true →
      Decimal.float? (Text.trimmed operand) = some divisor → (divisor == 0.0) = true →
      Fails s captures u operand (.math .div name value) (.divisionByZero name)
  | unnamed {line : List Piece} : Text.wordsOf operand = [] →
      Fails s captures u operand (.call line) (.undefinedMacro "")
  | undefined {line : List Piece} {name : String} {args : List String} : Text.wordsOf operand = name :: args →
      s.macros.resolve? name = none → Fails s captures u operand (.call line) (.undefinedMacro name)

/-! ## Numbers as they are written -/

namespace Decimal

theorem not_mem_toDigits (n : Nat) : '<' ∉ Nat.toDigits 10 n := by
  intro h
  have hdigit := Nat.isDigit_of_mem_toDigits (by decide) (by decide) h
  exact absurd hdigit (by decide)

theorem not_mem_positional (digits : Nat) (exponent : Int) : '<' ∉ (positional digits exponent).toList := by
  have hdigits := not_mem_toDigits digits
  rw [positional]
  dsimp only
  split
  · simp [hdigits]
  · split
    · simp [hdigits]
    · simp only [String.toList_append, String.toList_ofList, List.mem_append, not_or]
      exact ⟨⟨fun h => hdigits (List.mem_of_mem_take h), by decide⟩, fun h => hdigits (List.mem_of_mem_drop h)⟩

theorem not_mem_written (x : Float) : '<' ∉ (written x).toList := by
  have hsign : ∀ b : Bool, '<' ∉ (if b then "-" else "").toList := by decide
  rw [written]
  split
  · rw [Binary.written]
    split
    · split
      · simp [not_mem_toDigits]
      · simp [not_mem_toDigits]
    · rw [String.toList_append, List.mem_append, not_or]
      exact ⟨hsign _, not_mem_positional _ _⟩
  · split
    · decide
    · split <;> decide

/-- No number is written as the text that erases. -/
theorem written_ne_erasing (x : Float) : written x ≠ erasingValue := by
  intro h
  have hmem := not_mem_written x
  rw [h] at hmem
  exact hmem (by decide)

end Decimal

namespace Turn

/-- The turn with one more diagnostic. -/
def diagnosed (t : Turn) (d : Diagnostic) : Turn := { t with diagnostics := t.diagnostics ++ [d] }

section Tags

variable {s : Scene} {redirect : String → Play String} {captures : Captures} {t t₁ : Turn} {operand : String}

theorem capture_of_outside {texts : List String} {index : Nat} (h : ¬ (1 ≤ index ∧ index ≤ texts.length)) (t : Turn) :
    (capture texts index).run t = ("", t.diagnosed (.starOutOfRange index texts.length)) := by
  cases index with
  | zero => rfl
  | succ index =>
    have hnone : texts[index]? = none := List.getElem?_eq_none_iff.mpr (by omega)
    simp only [capture, hnone]
    rfl

theorem remembered_of_outside {entry : User → Nat → Option String} {index : Nat} (h : entry t.user index = none) :
    (remembered entry index).run t = ("", t.diagnosed (.historyOutOfRange index)) := by
  simp only [remembered, StateT.run_bind, StateT.run_get, pure_bind, h]
  rfl

theorem get?_of_outside {h : History} {index : Nat} (hindex : ¬ (1 ≤ index ∧ index ≤ historySize)) :
    h.get? index = none := by
  cases index with
  | zero => rfl
  | succ index =>
    rw [History.get?, List.getElem?_eq_none_iff, h.size_eq]
    omega

/-- A tag without an operand is played in the turn as it is. -/
theorem eq_of_no_operand (h : (renderPieces s redirect captures []).run t = (.ok operand, t₁)) : t₁ = t := by
  cases h
  rfl

theorem run_renderPiece_math {op : MathOp} {name : String} (value : List Piece)
    (h : (renderPieces s redirect captures value).run t = (.ok operand, t₁)) :
    (renderPiece s redirect captures (.math op name value)).run t = (.ok "", ((applyMath op name operand).run t₁).2) := by
  rw [renderPiece, run_bind, h]
  dsimp only
  rw [run_bind, run_lift]
  rfl

theorem run_renderPiece_call (line : List Piece) (h : (renderPieces s redirect captures line).run t = (.ok operand, t₁)) :
    (renderPiece s redirect captures (.call line)).run t =
      (.ok ((callMacro s operand).run t₁).1, ((callMacro s operand).run t₁).2) := by
  rw [renderPiece, run_bind, h]
  rfl

/-- What a failing tag does once its text is rendered. -/
theorem renderPiece_of_fails {p : Piece} {d : Diagnostic}
    (hoperand : (renderPieces s redirect captures p.operand).run t = (.ok operand, t₁))
    (hfails : p.Fails s captures t₁.user operand d) :
    (renderPiece s redirect captures p).run t = (.ok "", t₁.diagnosed d) := by
  have hplayed : ∀ {x : Act String} {d : Diagnostic}, x.run t = ("", t.diagnosed d) →
      (liftM x : Play String).run t = (.ok "", t.diagnosed d) := by
    intro x d hx
    exact congrArg (fun r : String × Turn => (Except.ok r.1, r.2)) hx
  cases hfails with
  | star hindex =>
    rw [eq_of_no_operand hoperand]
    exact hplayed (capture_of_outside hindex t)
  | botStar hindex =>
    rw [eq_of_no_operand hoperand]
    exact hplayed (capture_of_outside hindex t)
  | input hindex =>
    rw [eq_of_no_operand hoperand]
    exact hplayed (remembered_of_outside (get?_of_outside hindex))
  | reply hindex =>
    rw [eq_of_no_operand hoperand]
    exact hplayed (remembered_of_outside (get?_of_outside hindex))
  | @current op name value hcurrent =>
    rw [run_renderPiece_math value hoperand, run_applyMath_of_current hcurrent]
    rfl
  | @number op name value hcurrent hnumber =>
    obtain ⟨a, ha⟩ := Option.isSome_iff_exists.mp hcurrent
    rw [run_renderPiece_math value hoperand, run_applyMath_of_operand ha hnumber]
    rfl
  | @zero name value divisor hcurrent hdivisor hzero =>
    obtain ⟨a, ha⟩ := Option.isSome_iff_exists.mp hcurrent
    rw [run_renderPiece_math value hoperand, run_applyMath_of_zero ha hdivisor ⟨rfl, hzero⟩]
    rfl
  | @unnamed line hline =>
    rw [run_renderPiece_call line hoperand, callMacro_of_unnamed hline]
    rfl
  | @undefined line name args hline hname =>
    rw [run_renderPiece_call line hoperand, callMacro_of_undefined hline hname]
    rfl

/-- An update that does not fail has two numbers, and writes what they come to. -/
theorem renderPiece_of_counts {op : MathOp} {name : String} {value : List Piece}
    (hoperand : (renderPieces s redirect captures value).run t = (.ok operand, t₁))
    (hcounts : ∀ d, ¬ (Piece.math op name value).Fails s captures t₁.user operand d) :
    ∃ a b, Decimal.float? (Text.trimmed (currentText t₁.user name)) = some a ∧
      Decimal.float? (Text.trimmed operand) = some b ∧
      (renderPiece s redirect captures (.math op name value)).run t =
        (.ok "", { t₁ with
          user := { t₁.user with vars := t₁.user.vars.put name (Decimal.written (compute op a b)) } }) := by
  cases ha : Decimal.float? (Text.trimmed (currentText t₁.user name)) with
  | none => exact absurd (.current ha) (hcounts _)
  | some a =>
    have hsome : (Decimal.float? (Text.trimmed (currentText t₁.user name))).isSome = true := by rw [ha, Option.isSome_some]
    cases hb : Decimal.float? (Text.trimmed operand) with
    | none => exact absurd (.number hsome hb) (hcounts _)
    | some b =>
      by_cases hzero : op = .div ∧ (b == 0.0) = true
      · obtain ⟨rfl, hzero⟩ := hzero
        exact absurd (.zero hsome hb hzero) (hcounts _)
      · refine ⟨a, b, rfl, rfl, ?_⟩
        have hset : t₁.user.set name (Decimal.written (compute op a b)) =
            { t₁.user with vars := t₁.user.vars.put name (Decimal.written (compute op a b)) } :=
          if_neg (Decimal.written_ne_erasing _)
        rw [run_renderPiece_math value hoperand, run_applyMath_of_numbers ha hb hzero, ← hset]
        rfl

end Tags

/-! ## What follows -/

section Rest

variable {s : Scene} {redirect : String → Play String} {captures : Captures}

theorem run_append {ps qs : List Piece} {t t₀ t₁ : Turn} {said : String} {result : Except Abort String}
    (hps : (renderPieces s redirect captures ps).run t = (.ok said, t₀))
    (hqs : (renderPieces s redirect captures qs).run t₀ = (result, t₁)) :
    (renderPieces s redirect captures (ps ++ qs)).run t = (result.map (said ++ ·), t₁) := by
  rw [renderPieces_append, run_bind, hps]
  dsimp only
  rw [run_bind, hqs]
  cases result with
  | error e => rfl
  | ok text => rfl

/-- A tag without text leaves the text of what follows. -/
theorem run_cons_of_no_text {p : Piece} {ps : List Piece} {t t₀ t₁ : Turn} {result : Except Abort String}
    (hp : (renderPiece s redirect captures p).run t = (.ok "", t₀))
    (hps : (renderPieces s redirect captures ps).run t₀ = (result, t₁)) :
    (renderPieces s redirect captures (p :: ps)).run t = (result, t₁) := by
  rw [renderPieces, run_bind, hp]
  dsimp only
  rw [run_bind, hps]
  cases result with
  | error e => rfl
  | ok text =>
    show (Except.ok ("" ++ text), t₁) = _
    rw [String.empty_append]

/-- What is rendered adds the same to a turn, whether or not a diagnostic was left before. -/
theorem exists_after_diagnosed (s : Scene) (captures : Captures) (left : Nat) (ps : List Piece) (t : Turn) (d : Diagnostic) : ∃ result later,
    (renderPieces s (follow s left) captures ps).run t = (result, t.andThen later) ∧
      (renderPieces s (follow s left) captures ps).run (t.diagnosed d) = (result, (t.diagnosed d).andThen later) := by
  have hresumes : ∀ t₀, Resumes t₀ String (renderPieces s (follow s left) captures ps) _ := fun t₀ =>
    related_renderPieces (redraws_resumes s t₀) (related_follow (redraws_resumes s t₀) left) ps
  have hplain := hresumes t { user := t.user }
  have hdiagnosed := hresumes (t.diagnosed d) { user := t.user }
  rw [andThen_begin] at hplain
  have hbegin : (t.diagnosed d).andThen { user := t.user } = t.diagnosed d := (t.diagnosed d).andThen_begin
  rw [hbegin] at hdiagnosed
  exact ⟨_, _, hplain, hdiagnosed⟩

/-- A tag that fails leaves one diagnostic and no text after what it renders first has had its effects, and
the rest of the template comes to what it comes to without the tag. An update that does not fail leaves no
diagnostic and changes its variable only. -/
theorem failing_tags_are_skipped {left : Nat} {before : List Piece} (after : List Piece) {p : Piece} {t t₀ t₁ : Turn}
    {said operand : String} (hbefore : (renderPieces s (follow s left) captures before).run t = (.ok said, t₀))
    (hoperand : (renderPieces s (follow s left) captures p.operand).run t₀ = (.ok operand, t₁)) :
    (∀ d, p.Fails s captures t₁.user operand d →
      (renderPiece s (follow s left) captures p).run t₀ = (.ok "", t₁.diagnosed d) ∧
        ∃ result later,
          (renderPieces s (follow s left) captures after).run t₁ = (result, t₁.andThen later) ∧
          (renderPieces s (follow s left) captures (before ++ p :: after)).run t =
            (result.map (said ++ ·), (t₁.diagnosed d).andThen later) ∧
          (p.operand = [] → (renderPieces s (follow s left) captures (before ++ after)).run t =
            (result.map (said ++ ·), t₁.andThen later))) ∧
      ∀ op name value, p = .math op name value → (∀ d, ¬ p.Fails s captures t₁.user operand d) →
        ∃ a b, Decimal.float? (Text.trimmed (currentText t₁.user name)) = some a ∧
          Decimal.float? (Text.trimmed operand) = some b ∧
          (renderPiece s (follow s left) captures p).run t₀ = (.ok "", { t₁ with
            user := { t₁.user with vars := t₁.user.vars.put name (Decimal.written (compute op a b)) } }) := by
  refine ⟨fun d hfails => ?_, fun op name value hp hcounts => ?_⟩
  · have hfailed := renderPiece_of_fails hoperand hfails
    obtain ⟨result, later, hplain, hdiagnosed⟩ := exists_after_diagnosed s captures left after t₁ d
    refine ⟨hfailed, result, later, hplain, run_append hbefore (run_cons_of_no_text hfailed hdiagnosed), fun hnone => ?_⟩
    rw [hnone] at hoperand
    have hstays : t₁ = t₀ := eq_of_no_operand hoperand
    exact run_append hbefore (hstays ▸ hplain)
  · subst hp
    exact renderPiece_of_counts hoperand hcounts

end Rest

/-- An operand that takes away the number it should be added to, and the same variable doubled as it was. -/
theorem failing_tags_are_skipped_overwriting :
    let captures : Captures := { stars := [], botStars := [] }
    let u := (User.new "u").set "hits" "6"
    let overwriting := Piece.math .add "hits" [.set "hits" [.text "x"], .text "1"]
    let doubling := Piece.math .mult "hits" [.text "2"]
    let after := [Piece.get "hits", .text "]"]
    ∃ b, Bot.new {} = .ok b ∧
      let rendered := renderPieces b.scene (follow b.scene 1) captures
      ((rendered [.text "["]).run { user := u } = (.ok "[", { user := u }) ∧
        (rendered overwriting.operand).run { user := u } = (.ok "1", { user := u.set "hits" "x" }) ∧
        overwriting.Fails b.scene captures (u.set "hits" "x") "1" (.notANumber "hits" "x")) ∧
      (rendered ([.text "["] ++ overwriting :: after)).run { user := u } =
        (.ok "[x]", { user := u.set "hits" "x", diagnostics := [.notANumber "hits" "x"] }) ∧
      ((rendered doubling.operand).run { user := u } = (.ok "2", { user := u }) ∧
        ∀ d, ¬ doubling.Fails b.scene captures u "2" d) ∧
      ∃ value, (renderPiece b.scene (follow b.scene 1) captures doubling).run { user := u } =
        (.ok "", { user := { u with vars := u.vars.put "hits" value } }) := by
  intro captures u overwriting doubling after
  obtain ⟨b, hnew, -⟩ : ∃ b, Bot.new {} = .ok b ∧ True := exists_ok_of_any (by decide +kernel)
  let rendered := renderPieces b.scene (follow b.scene 1) captures
  have hbefore : (rendered [.text "["]).run { user := u } = (.ok "[", { user := u }) := rfl
  have hoverwritten : (rendered overwriting.operand).run { user := u } = (.ok "1", { user := u.set "hits" "x" }) := rfl
  have hdoubled : (rendered doubling.operand).run { user := u } = (.ok "2", { user := u }) := rfl
  have hfails : overwriting.Fails b.scene captures (u.set "hits" "x") "1" (.notANumber "hits" "x") :=
    .current (by decide +kernel)
  have hcounts : ∀ d, ¬ doubling.Fails b.scene captures u "2" d := by
    intro d h
    change (Piece.math .mult "hits" [.text "2"]).Fails b.scene captures u "2" d at h
    cases h with
    | current h => exact absurd h (by decide +kernel)
    | number _ h => exact absurd h (by decide +kernel)
  refine ⟨b, hnew, ⟨hbefore, hoverwritten, hfails⟩, ?_, ⟨hdoubled, hcounts⟩, ?_⟩
  · obtain ⟨-, result, later, hplain, hall, -⟩ :=
      (failing_tags_are_skipped after hbefore hoverwritten).1 _ hfails
    have hafter : (rendered after).run { user := u.set "hits" "x" } = (.ok "x]", { user := u.set "hits" "x" }) := rfl
    rw [begin_andThen] at hplain
    cases hafter.symm.trans hplain
    exact hall
  · obtain ⟨a, b, -, -, hrun⟩ := (failing_tags_are_skipped after hbefore hdoubled).2 .mult "hits" _ rfl hcounts
    exact ⟨_, hrun⟩

end Turn

end Repartee
