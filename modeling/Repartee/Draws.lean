/-
  Repartee.Draws — choices left to chance.

  A source of draws is any endless sequence of numbers. A choice among weighted entries takes
  the next draw modulo the sum of the weights and finds the entry in whose share it falls. The
  sequences here mix a seed, the number of the turn and the number of the draw.
-/

namespace Repartee

abbrev Draws := Nat → Nat

/-- The sum of the shares. -/
def totalShare : List Nat → Nat
  | [] => 0
  | w :: ws => w + totalShare ws

/-- The position in whose share the draw falls. -/
def shareOf : List Nat → Nat → Option Nat
  | [], _ => none
  | w :: ws, draw => if draw < w then some 0 else (shareOf ws (draw - w)).map (· + 1)

namespace Draws

/-- Spread the bits of a number over all of its places. -/
def mix (x : UInt64) : UInt64 :=
  let x := (x ^^^ (x >>> 30)) * 0xBF58476D1CE4E5B9
  let x := (x ^^^ (x >>> 27)) * 0x94D049BB133111EB
  x ^^^ (x >>> 31)

def golden : UInt64 := 0x9E3779B97F4A7C15

/-- The draws of one turn. -/
def ofSeed (seed turn : Nat) : Draws := fun n =>
  (mix (mix (mix (seed.toUInt64 + golden) + turn.toUInt64 + golden) + n.toUInt64 + golden)).toNat

end Draws

end Repartee
