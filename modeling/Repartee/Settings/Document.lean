/-
  Repartee.Settings.Document — settings from a TOML document.

  Every field has a default, so a document names only what it changes. It may not name a field
  twice or one that does not exist, and every value must be of its field's type. The
  substitutions are a table of texts, in braces, under a header of their own, or by keys with
  a point, but not by two of these.
-/

import Repartee.Settings.Basic
import Repartee.Toml.Reader

namespace Repartee

namespace Settings

open Toml (Value Statement Key)

/-- A document read so far: the settings, the fields it has named, and whether it is under the
header of the substitutions. -/
structure Draft where
  settings : Settings := {}
  named : List String := []
  inSubstitutions : Bool := false

def number? : Value → Option Nat
  | .integer (.ofNat n) => if n < Decimal.bound64 then some n else none
  | _ => none

def text? : Value → Option String
  | .text s => some s
  | _ => none

def boolean? : Value → Option Bool
  | .boolean b => some b
  | _ => none

def texts? : Value → Option (List String)
  | .array values => values.mapM text?
  | _ => none

/-- Add a substitution; a key has one at most. -/
def substitute? (s : Settings) (key : String) (value : Value) : Option Settings := do
  let value ← text? value
  if s.substitutions.contains key then none
  else some { s with substitutions := s.substitutions.put key value }

def substituteAll? (s : Settings) : List (Key × Value) → Option Settings
  | [] => some s
  | ([key], value) :: entries => do substituteAll? (← s.substitute? key value) entries
  | _ => none

/-- Give a field its value. -/
def assign? (s : Settings) (field : String) (value : Value) : Option Settings :=
  if field = "max_depth" then (number? value).map fun n => { s with maxDepth := n }
  else if field = "no_match_reply" then (text? value).map fun t => { s with noMatchReply := t }
  else if field = "no_reply_found" then (text? value).map fun t => { s with noReplyFound := t }
  else if field = "deep_recursion_reply" then (text? value).map fun t => { s with deepRecursionReply := t }
  else if field = "punctuation" then (text? value).map fun t => { s with punctuation := t }
  else if field = "substitutions" then
    match value with
    | .table entries => s.substituteAll? entries
    | _ => none
  else if field = "macro_timeout_ms" then (number? value).map fun n => { s with macroTimeout := some n }
  else if field = "seed" then (number? value).map fun n => { s with seed := some n }
  else if field = "extensions" then (texts? value).map fun ts => { s with extensions := ts }
  else if field = "strict" then (boolean? value).map fun b => { s with strict := b }
  else none

namespace Draft

/-- Name a field that has not been named. -/
def name? (d : Draft) (field : String) : Option Draft :=
  if d.named.contains field then none else some { d with named := field :: d.named }

def substitute? (d : Draft) (key : String) (value : Value) : Option Draft :=
  (d.settings.substitute? key value).map fun settings => { d with settings }

/-- Keys with a point may follow each other; the mark they leave differs from that of the field. -/
def pointed : String := "substitutions."

def statement? (d : Draft) : Statement → Option Draft
  | .table ["substitutions"] =>
    if d.named.contains pointed then none
    else (d.name? "substitutions").map fun d => { d with inSubstitutions := true }
  | .table _ | .tableOfArray _ => none
  | .assign key value =>
    if d.inSubstitutions then
      match key with
      | [key] => d.substitute? key value
      | _ => none
    else
      match key with
      | [field] => do
        if field = "substitutions" ∧ d.named.contains pointed then none
        let d ← d.name? field
        let settings ← d.settings.assign? field value
        some { d with settings }
      | ["substitutions", key] =>
        if d.named.contains "substitutions" then none
        else ({ d with named := pointed :: d.named } : Draft).substitute? key value
      | _ => none

end Draft

/-- The settings a document describes. -/
def ofToml (text : String) : Except SettingsFault Settings := do
  let draft := (Toml.read? text).bind fun statements => statements.foldlM Draft.statement? {}
  match draft with
  | none => .error .document
  | some d =>
    let _ ← d.settings.punctuationRegex
    .ok d.settings

end Settings

end Repartee
