/-! Binary floating-point magnitudes of 64 bits, in exact arithmetic on natural numbers. -/
namespace CallGraph

/-- The magnitude `mantissa * 2 ^ exponent`. -/
structure Binary64 where
  mantissa : Nat
  exponent : Int
  deriving DecidableEq, Repr

namespace Binary64

/-- Below this power of two no further bit is kept. -/
def leastExponent : Int := -1074

/-- Above this power of two a full mantissa is out of range. -/
def greatestExponent : Int := 971

def zero : Binary64 :=
  ⟨0, leastExponent⟩

/-- The fraction `num / den` divided by `2 ^ e`, as a fraction. -/
def scaled (num den : Nat) (e : Int) : Nat × Nat :=
  if 0 ≤ e then (num, den * Nat.pow 2 e.toNat) else (num * Nat.pow 2 (-e).toNat, den)

/-- The nearest natural number to a fraction; a tie goes to the even one. -/
def roundEven (num den : Nat) : Nat :=
  let q := num / den
  let r := num % den
  if 2 * r < den ∨ (2 * r = den ∧ q % 2 = 0) then q else q + 1

/-- The exponent at which the mantissa of a fraction has 53 bits, unless that is too small. -/
def exponentFor (num den : Nat) : Int :=
  let e : Int := (num.log2 : Int) - den.log2 - 53
  let (n, d) := scaled num den e
  max leastExponent (if n < d * Nat.pow 2 53 then e else e + 1)

/-- The nearest magnitude to a fraction, if it is in range; a tie goes to the even mantissa. -/
def ofRatio? (num den : Nat) : Option Binary64 :=
  if num = 0 then some zero else
    let e := exponentFor num den
    let (n, d) := scaled num den e
    let m := roundEven n d
    let x : Binary64 := if m = Nat.pow 2 53 then ⟨Nat.pow 2 52, e + 1⟩ else ⟨m, e⟩
    if x.exponent ≤ greatestExponent then some x else none

def ratio (x : Binary64) : Nat × Nat :=
  if 0 ≤ x.exponent then (x.mantissa * Nat.pow 2 x.exponent.toNat, 1)
  else (x.mantissa, Nat.pow 2 (-x.exponent).toNat)

def mul? (x y : Binary64) : Option Binary64 :=
  ofRatio? (x.ratio.1 * y.ratio.1) (x.ratio.2 * y.ratio.2)

def div? (x y : Binary64) : Option Binary64 :=
  ofRatio? (x.ratio.1 * y.ratio.2) (x.ratio.2 * y.ratio.1)

def ofNat? (n : Nat) : Option Binary64 :=
  ofRatio? n 1

/-- The largest exponent of ten whose power is in range. -/
def greatestTen : Nat := 308

def ten? (n : Nat) : Option Binary64 :=
  ofNat? (Nat.pow 10 n)

/-- Divides by a power of ten, in steps when the power is out of range. -/
def overTen? (x : Binary64) (n : Nat) : Option Binary64 :=
  if n ≤ greatestTen then do x.div? (← ten? n)
  else if x.mantissa = 0 then some x
  else do
    let y ← x.div? (← ten? greatestTen)
    y.overTen? (n - greatestTen)
termination_by n
decreasing_by simp only [greatestTen] at *; omega

/-- `significand * 10 ^ exponent`, rounded once for each operand and once for each step. -/
def ofParts? (significand : Nat) (exponent : Int) : Option Binary64 := do
  let x ← ofNat? significand
  if exponent < 0 then x.overTen? (-exponent).toNat
  else if exponent.toNat ≤ greatestTen then x.mul? (← ten? exponent.toNat)
  else if x.mantissa = 0 then some x
  else none

end Binary64
end CallGraph
