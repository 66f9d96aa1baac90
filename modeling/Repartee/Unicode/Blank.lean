/-
  Repartee.Unicode.Blank — white space: the 25 characters of the property White_Space. Trimming,
  splitting into words and the blanks of a rule line all mean these.
-/

namespace Repartee.Unicode

def isBlank (c : Char) : Bool :=
  let n := c.toNat
  n == 0x20 || (0x9 ≤ n && n ≤ 0xD) || n == 0x85 || n == 0xA0 || n == 0x1680 ||
    (0x2000 ≤ n && n ≤ 0x200A) || n == 0x2028 || n == 0x2029 || n == 0x202F ||
    n == 0x205F || n == 0x3000

end Repartee.Unicode
