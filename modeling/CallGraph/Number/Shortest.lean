import CallGraph.Number.Binary64

/-! The fewest decimal digits that identify a binary magnitude, and the text they are shown in. -/
namespace CallGraph

/-- The decimal magnitude `digits * 10 ^ exponent`. -/
structure Decimal where
  digits : Nat
  exponent : Int
  deriving DecidableEq, Repr

namespace Decimal

def digitsOf (n : Nat) : List Char :=
  Nat.toDigits 10 n

def ratio (x : Decimal) : Nat × Nat :=
  if 0 ≤ x.exponent then (x.digits * Nat.pow 10 x.exponent.toNat, 1)
  else (x.digits, Nat.pow 10 (-x.exponent).toNat)

end Decimal

private def ratioLt (x y : Nat × Nat) : Bool :=
  x.1 * y.2 < y.1 * x.2

namespace Binary64

/-- The ends of the interval that rounds to a magnitude. -/
def bounds (x : Binary64) : (Nat × Nat) × (Nat × Nat) :=
  let narrow := x.mantissa = Nat.pow 2 52 ∧ leastExponent < x.exponent
  let quarter : Nat → Nat × Nat := fun m => ratio ⟨m, x.exponent - 2⟩
  (quarter (4 * x.mantissa - if narrow then 1 else 2), quarter (4 * x.mantissa + 2))

/-- Whether a fraction rounds to the magnitude; the ends do so for an even mantissa. -/
def covers (x : Binary64) (y : Nat × Nat) : Bool :=
  let (low, high) := x.bounds
  if x.mantissa % 2 = 0 then !ratioLt y low && !ratioLt high y
  else ratioLt low y && ratioLt y high

/-- The exponent of the leading decimal digit of a positive fraction. -/
def leadingTen (num den : Nat) : Int :=
  if den ≤ num then ((Decimal.digitsOf (num / den)).length : Int) - 1
  else
    let t := (Decimal.digitsOf (den / num)).length - 1
    if Nat.pow 10 t * num = den then -t else -(t + 1)

/-- The nearer of the two neighbours on the decimal grid that identify the magnitude. -/
def nearestOn? (x : Binary64) (grid : Int) : Option Decimal :=
  let (num, den) := x.ratio
  let (n, d) :=
    if 0 ≤ grid then (num, den * Nat.pow 10 grid.toNat) else (num * Nat.pow 10 (-grid).toNat, den)
  let below : Decimal := ⟨n / d, grid⟩
  let above : Decimal := ⟨n / d + 1, grid⟩
  let r := n % d
  let preferBelow := 2 * r < d ∨ (2 * r = d ∧ n / d % 2 = 0)
  match x.covers below.ratio, x.covers above.ratio with
  | true, true => some (if preferBelow then below else above)
  | true, false => some below
  | false, true => some above
  | false, false => none

/-- The coarsest grid that identifies a positive magnitude gives its digits. -/
def shortest (x : Binary64) : Decimal :=
  let top := leadingTen x.ratio.1 x.ratio.2
  ((List.range 17).findSome? fun (n : Nat) => x.nearestOn? (top - n)).getD ⟨0, 0⟩

/-- Digits are positional while the leading one stands between these powers of ten. -/
def positionalRange : Int × Int := (-5, 15)

/-- The text of a magnitude: its shortest digits, positional or with an exponent. -/
def text (x : Binary64) : String :=
  if x.mantissa = 0 then "0.0" else
    let short := x.shortest
    let all := Decimal.digitsOf short.digits
    let top : Int := short.exponent + all.length - 1
    let digits := (all.reverse.dropWhile (· = '0')).reverse
    let shown : List Char :=
      if top < positionalRange.1 ∨ positionalRange.2 < top then
        let tail := digits.drop 1
        digits.take 1 ++ (if tail.isEmpty then [] else '.' :: tail) ++
          ['e', if top < 0 then '-' else '+'] ++ Decimal.digitsOf top.natAbs
      else if top < 0 then
        ['0', '.'] ++ List.replicate (top.natAbs - 1) '0' ++ digits
      else
        let whole := top.toNat + 1
        let tail := digits.drop whole
        digits.take whole ++ List.replicate (whole - digits.length) '0' ++ '.' ::
          (if tail.isEmpty then ['0'] else tail)
    String.ofList shown

end Binary64
end CallGraph
