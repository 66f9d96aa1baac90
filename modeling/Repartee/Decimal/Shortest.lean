/-
  Repartee.Decimal.Shortest — the fewest digits that read back as the same double.

  A finite double is `mantissa · 2 ^ exponent`. The reals that round to it form an interval
  that reaches half way to its neighbours, ends included when the mantissa is even. On the
  grid of multiples of a power of ten only the two points around the value can be nearest to
  it; the coarsest grid that has one of them in the interval gives the digits, the nearer of
  two wins and of two equally near the greater.
-/

namespace Repartee.Decimal

/-- The exact value of a finite double. -/
structure Binary where
  negative : Bool
  mantissa : Nat
  exponent : Int
  deriving DecidableEq, Repr

/-- The bit that a normal mantissa has above the 52 that are stored. -/
def leadingBit : Nat := 0x10000000000000

/-- The parts of a double by its bits; an infinity or NaN has none. -/
def Binary.ofBits? (bits : UInt64) : Option Binary :=
  let n : Nat := bits.toNat
  let fraction : Nat := n % leadingBit
  let field : Nat := n / leadingBit % 2048
  let negative : Bool := 2048 ≤ n / leadingBit
  if field = 2047 then none
  else if field = 0 then some ⟨negative, fraction, -1074⟩
  else some ⟨negative, fraction + leadingBit, (field : Int) - 1075⟩

/-- A non-negative fraction. -/
structure Ratio where
  num : Nat
  den : Nat
  deriving DecidableEq, Repr

/-- `mantissa · 2 ^ exponent` as a fraction. -/
def dyadic (mantissa : Nat) (exponent : Int) : Ratio :=
  if exponent < 0 then ⟨mantissa, 1 <<< exponent.natAbs⟩ else ⟨mantissa <<< exponent.natAbs, 1⟩

/-- Ten to the power of an exponent without its sign. -/
def tenTo (exponent : Int) : Nat := Nat.pow 10 exponent.natAbs

/-- `digits · 10 ^ exponent` as a fraction. -/
def decimal (digits : Nat) (exponent : Int) : Ratio :=
  if exponent < 0 then ⟨digits, tenTo exponent⟩ else ⟨digits * tenTo exponent, 1⟩

def Ratio.le (a b : Ratio) : Bool := a.num * b.den ≤ b.num * a.den

def Ratio.lt (a b : Ratio) : Bool := a.num * b.den < b.num * a.den

def Ratio.add (a b : Ratio) : Ratio := ⟨a.num * b.den + b.num * a.den, a.den * b.den⟩

/-- The reals that round to a double, with its value. -/
structure Interval where
  value : Ratio
  low : Ratio
  high : Ratio
  closed : Bool

/-- Half way to each neighbour; below a power of two the neighbour is half as far. -/
def Binary.interval (b : Binary) : Interval :=
  let narrow := b.mantissa = leadingBit ∧ b.exponent ≠ -1074
  { value := dyadic b.mantissa b.exponent
    low := if narrow then dyadic (4 * b.mantissa - 1) (b.exponent - 2)
      else dyadic (2 * b.mantissa - 1) (b.exponent - 1)
    high := dyadic (2 * b.mantissa + 1) (b.exponent - 1)
    closed := b.mantissa % 2 = 0 }

def Interval.contains (i : Interval) (r : Ratio) : Bool :=
  if i.closed then i.low.le r && r.le i.high else i.low.lt r && r.lt i.high

/-- The greatest multiple of ten to the power `exponent` that is not above `r`, as a count. -/
def gridFloor (r : Ratio) (exponent : Int) : Nat :=
  if exponent < 0 then r.num * tenTo exponent / r.den else r.num / (r.den * tenTo exponent)

/-- The multiple of ten to the power `exponent` in the interval that is nearest to its value. -/
def Interval.pick (i : Interval) (exponent : Int) : Option Nat :=
  let d := gridFloor i.value exponent
  match i.contains (decimal d exponent), i.contains (decimal (d + 1) exponent) with
  | false, false => none
  | true, false => some d
  | false, true => some (d + 1)
  | true, true =>
    if (i.value.add i.value).lt ((decimal d exponent).add (decimal (d + 1) exponent)) then some d
    else some (d + 1)

/-- The coarsest grid, from `exponent` down, that has a point in the interval. -/
def Interval.coarsest (i : Interval) : Nat → Int → Nat × Int
  | 0, exponent => (gridFloor i.value exponent, exponent)
  | tries + 1, exponent =>
    match i.pick exponent with
    | some d => (d, exponent)
    | none => i.coarsest tries (exponent - 1)

/-- How many digits the whole part of a fraction has, or minus the zeros after its point. -/
def magnitude (r : Ratio) : Int :=
  if r.den ≤ r.num then (Nat.toDigits 10 (r.num / r.den)).length
  else 1 - ((Nat.toDigits 10 (r.den / r.num)).length : Int)

/-- Digits and exponent of the shortest decimal of a double that is not zero. At most seventeen
digits are needed; the search starts one power of ten above the value. -/
def Binary.shortest (b : Binary) : Nat × Int :=
  if b.mantissa = 0 then (0, 0)
  else b.interval.coarsest 20 (magnitude b.interval.value + 1)

/-- Whether the value is a whole number. -/
def Binary.isWhole (b : Binary) : Bool :=
  let r := dyadic b.mantissa b.exponent
  r.num % r.den = 0

/-- The whole part, without its sign. -/
def Binary.whole (b : Binary) : Nat :=
  let r := dyadic b.mantissa b.exponent
  r.num / r.den

end Repartee.Decimal
