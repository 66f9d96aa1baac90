/-
  Repartee.Text.Casing — upper and lower case of a text.

  Case maps act character by character and may lengthen the text. The one rule that looks
  around is the capital sigma: at the end of a word its lowercase is `ς`. It ends a word when
  a cased character stands before it and none after it, with case-ignorable ones passed over.
-/

import Repartee.Text.Split
import Repartee.Unicode.Casing

namespace Repartee.Text

open Unicode

/-- Whether a cased character comes first once the case-ignorable ones are passed over. -/
def meetsCased (cs : List Char) : Bool :=
  match cs.dropWhile isCaseIgnorable with
  | [] => false
  | c :: _ => isCased c

/-- The lowercase of `c` between `before`, read backwards, and `after`. -/
def lowerAt (before : List Char) (c : Char) (after : List Char) : List Char :=
  if c = 'Σ' then [if meetsCased before && !meetsCased after then 'ς' else 'σ'] else lowerChar c

def lowerAfter : List Char → List Char → List Char
  | _, [] => []
  | before, c :: cs => lowerAt before c cs ++ lowerAfter (c :: before) cs

def lower (cs : List Char) : List Char := lowerAfter [] cs

def upper (cs : List Char) : List Char := cs.flatMap upperChar

/-- Uppercase the first character and keep the rest. -/
def capitalize : List Char → List Char
  | [] => []
  | c :: cs => upperChar c ++ cs

/-- Lowercase but for the first character. -/
def sentence (cs : List Char) : List Char := capitalize (lower cs)

/-- `sentence` on every piece between spaces. -/
def formal (cs : List Char) : List Char :=
  [' '].intercalate ((fields (· == ' ') cs).map sentence)

def lowercase (s : String) : String := .ofList (lower s.toList)

end Repartee.Text
