/-
  Repartee.Lexicon — from a message to the words that triggers are matched against.

  A message is put into lower case and cut at blanks; each word loses what is not alphanumeric
  at its ends; substitutions replace runs of words; what is left loses its punctuation, and
  words with nothing left are dropped. The words of a trigger are only stripped, so that both
  sides meet in one alphabet.

  Substitutions are scanned once from the left. The table holds the longest keys first, each
  key once, so the first entry that fits is the longest; replaced words are not read again.
-/

import Repartee.Regex.Basic
import Repartee.Text.Casing

namespace Repartee

structure Substitution where
  key : List String
  value : List String
  deriving DecidableEq, Repr

structure Lexicon where
  /-- What is removed from a word. -/
  punctuation : Regex
  substitutions : List Substitution := []
  deriving DecidableEq, Repr

namespace Lexicon

open Text

/-- Everything but letters, numbers and blanks. -/
def standardPunctuation : Regex :=
  .one { items := [.property .letter false, .property .number false, .property .blank false], negated := true }

/-- No substitutions, and the standard punctuation. -/
def standard : Lexicon := { punctuation := standardPunctuation }

/-! ## The table of substitutions -/

def lowerWords (s : String) : List String := wordsOf (lowercase s)

/-- The order of word lists by their first difference. -/
def wordsLe : List String → List String → Bool
  | [], _ => true
  | _ :: _, [] => false
  | a :: as, b :: bs => a < b || (a == b && wordsLe as bs)

/-- The order of the table: more words first, then by the words. -/
def keyLe (a b : Substitution) : Bool :=
  b.key.length < a.key.length || (a.key.length == b.key.length && wordsLe a.key b.key)

/-- Drop the entries that repeat the key before them. -/
def dropRepeats : List Substitution → List Substitution
  | [] => []
  | s :: rest =>
    s :: match dropRepeats rest with
      | [] => []
      | t :: ts => if t.key = s.key then ts else t :: ts

def table (pairs : List (String × String)) : List Substitution :=
  let entries := pairs.map fun (k, v) => ({ key := lowerWords k, value := lowerWords v } : Substitution)
  dropRepeats ((entries.filter (!·.key.isEmpty)).mergeSort keyLe)

def ofPairs (punctuation : Regex) (pairs : List (String × String)) : Lexicon :=
  { punctuation, substitutions := table pairs }

/-- Replace from the left; the first `skip` words belong to a key that has been replaced. -/
def substituteFrom (subs : List Substitution) : Nat → List String → List String
  | _, [] => []
  | skip + 1, _ :: ws => substituteFrom subs skip ws
  | 0, w :: ws =>
    match subs.find? (·.key.isPrefixOf (w :: ws)) with
    | some s => s.value ++ substituteFrom subs (s.key.length - 1) ws
    | none => w :: substituteFrom subs 0 ws

def substitute (l : Lexicon) (ws : List String) : List String := substituteFrom l.substitutions 0 ws

/-! ## Words -/

/-- Drop what is not alphanumeric at both ends. -/
def trimEdges (cs : List Char) : List Char :=
  dropEndWhile (!Unicode.isAlphanumeric ·) (cs.dropWhile (!Unicode.isAlphanumeric ·))

/-- Lower case without punctuation. -/
def strip (l : Lexicon) (word : String) : String :=
  .ofList (trim (l.punctuation.erase (lower word.toList)))

/-- The words of a message before substitution. -/
def edged (message : String) : List String :=
  (((words (lower message.toList)).map trimEdges).filter (!·.isEmpty)).map .ofList

/-- The words of a message. -/
def words (l : Lexicon) (message : String) : List String :=
  ((l.substitute (edged message)).map l.strip).filter (!·.isEmpty)

/-- The words of a message as one text. -/
def wording (l : Lexicon) (message : String) : String := spaced (l.words message)

end Lexicon

end Repartee
