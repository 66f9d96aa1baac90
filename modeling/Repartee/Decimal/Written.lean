/-
  Repartee.Decimal.Written — how a computed number is written into a variable.

  A whole number of magnitude below 10^15 is written as an integer, zero without its sign. Any
  other finite number is written with its shortest digits, a point where it falls and never an
  exponent. The rest are `inf`, `-inf` and `NaN`.
-/

import Repartee.Decimal.Shortest

namespace Repartee.Decimal

/-- `digits · 10 ^ exponent` with the point written where it falls. -/
def positional (digits : Nat) (exponent : Int) : String :=
  let ds := Nat.toDigits 10 digits
  if 0 ≤ exponent then .ofList (ds ++ List.replicate exponent.natAbs '0')
  else
    let places := exponent.natAbs
    if ds.length ≤ places then "0." ++ .ofList (List.replicate (places - ds.length) '0' ++ ds)
    else .ofList (ds.take (ds.length - places)) ++ "." ++ .ofList (ds.drop (ds.length - places))

/-- Magnitudes below this are written as integers when they are whole. -/
def wholeLimit : Nat := 1000000000000000

def Binary.written (b : Binary) : String :=
  if b.isWhole && b.whole < wholeLimit then
    if b.negative && b.whole ≠ 0 then "-" ++ toString b.whole else toString b.whole
  else
    let (digits, exponent) := b.shortest
    (if b.negative then "-" else "") ++ positional digits exponent

def written (x : Float) : String :=
  match Binary.ofBits? x.toBits with
  | some b => b.written
  | none => if x.isNaN then "NaN" else if x < 0.0 then "-inf" else "inf"

end Repartee.Decimal
