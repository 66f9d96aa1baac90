/-
  Repartee.Decimal.Reading — numbers as a rule or a user writes them.

  - `natural bound` reads decimal digits after at most one plus sign, below `bound`; leading
    zeros are allowed, nothing else is.
  - `Numeral.read` reads an optional sign and then `inf`, `infinity` or `nan` in either case,
    or digits with at most one point, at least one digit, and an optional exponent.
  - `Numeral.toFloat` is the nearest double; a magnitude beyond the doubles is infinite and
    one far below them is zero.
-/

namespace Repartee.Decimal

/-- Numbers of 32 bits are below this bound. -/
def bound32 : Nat := 0x100000000

/-- Numbers of 64 bits are below this bound. -/
def bound64 : Nat := 0x10000000000000000

def digitsValue (cs : List Char) : Nat :=
  cs.foldl (fun n c => 10 * n + (c.toNat - '0'.toNat)) 0

/-- Split off the leading digits. -/
def spanDigits (cs : List Char) : List Char × List Char := cs.span Char.isDigit

/-- A natural number below `bound`, with at most a plus sign before its digits. -/
def natural (bound : Nat) (cs : List Char) : Option Nat :=
  let ds := match cs with
    | '+' :: rest => rest
    | _ => cs
  if ds.isEmpty || ds.any (!·.isDigit) then none
  else if digitsValue ds < bound then some (digitsValue ds) else none

inductive Numeral where
  /-- `digits` times ten to the power `exponent`. -/
  | finite (negative : Bool) (digits : Nat) (exponent : Int)
  | infinite (negative : Bool)
  | notANumber
  deriving DecidableEq, Repr

/-- The sign before a number, and what follows it. -/
def takeSign : List Char → Bool × List Char
  | '-' :: rest => (true, rest)
  | '+' :: rest => (false, rest)
  | cs => (false, cs)

/-- An exponent `e5`, `E+5` or `e-5`; none counts as zero. -/
def exponent? : List Char → Option Int
  | [] => some 0
  | c :: cs =>
    if c = 'e' ∨ c = 'E' then
      let (negative, ds) := takeSign cs
      if ds.isEmpty || ds.any (!·.isDigit) then none
      else some (if negative then -(digitsValue ds : Int) else digitsValue ds)
    else none

/-- The digits before and after the point, and what follows them. -/
def mantissa? (cs : List Char) : Option (List Char × List Char × List Char) :=
  let (whole, rest) := spanDigits cs
  let (fraction, rest) := match rest with
    | '.' :: rest => spanDigits rest
    | _ => ([], rest)
  if whole.isEmpty && fraction.isEmpty then none else some (whole, fraction, rest)

def unsigned? (negative : Bool) (cs : List Char) : Option Numeral :=
  let name := String.ofList (cs.map Char.toLower)
  if name = "inf" ∨ name = "infinity" then some (.infinite negative)
  else if name = "nan" then some .notANumber
  else do
    let (whole, fraction, rest) ← mantissa? cs
    let e ← exponent? rest
    some (.finite negative (digitsValue (whole ++ fraction)) (e - fraction.length))

def Numeral.read (s : String) : Option Numeral :=
  let (negative, cs) := takeSign s.toList
  unsigned? negative cs

/-- How many decimal digits `n` has, at least one. -/
def digitCount (n : Nat) : Nat := (Nat.toDigits 10 n).length

/-- The double nearest to `digits` times ten to the power `exponent`. -/
def nearest (digits : Nat) (exponent : Int) : Float :=
  let size := digitCount digits + exponent
  if digits = 0 ∨ size < -400 then 0.0
  else if 400 < size then 1.0 / 0.0
  else if exponent < 0 then Float.ofScientific digits true exponent.natAbs
  else Float.ofScientific digits false exponent.natAbs

def Numeral.toFloat : Numeral → Float
  | .finite negative digits exponent => if negative then -nearest digits exponent else nearest digits exponent
  | .infinite negative => if negative then -(1.0 / 0.0) else 1.0 / 0.0
  | .notANumber => 0.0 / 0.0

/-- The double a text stands for, if it is a number. -/
def float? (s : String) : Option Float := (Numeral.read s).map Numeral.toFloat

end Repartee.Decimal
