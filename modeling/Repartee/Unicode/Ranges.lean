/-
  Repartee.Unicode.Ranges — a property of characters as a table of ranges of code points, in
  ascending order. A search stops at the first range that starts above the code point.
-/

namespace Repartee.Unicode

abbrev Ranges := List (Nat × Nat)

/-- Whether the code point `n` lies in one of the ranges. -/
def Ranges.covers : Ranges → Nat → Bool
  | [], _ => false
  | (lo, hi) :: rest, n => if n < lo then false else n ≤ hi || Ranges.covers rest n

def Ranges.holds (ranges : Ranges) (c : Char) : Bool := ranges.covers c.toNat

end Repartee.Unicode
