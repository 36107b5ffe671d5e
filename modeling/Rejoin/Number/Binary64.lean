/-!
# Binary floating point of 64 bits

Exact arithmetic on natural numbers throughout.

* `Binary64.ofRatio` — the number nearest to a ratio, ties to the even mantissa;
* `Binary64.ofDecimal` — a decimal, read quickly rather than to the last bit: its digits are rounded, and their
  product or quotient with a power of ten is rounded again;
* `Binary64.shortest`, `Binary64.text` — the fewest digits that read back, and the text made of them.
-/

namespace Rejoin

/-- A finite magnitude: `mantissa · 2 ^ exponent`, with a mantissa below 2^53 that is at least 2^52
unless the exponent is the least one. -/
structure Binary64 where
  mantissa : Nat
  exponent : Int
deriving DecidableEq, Repr

namespace Binary64

def least : Int := -1074

def largest : Int := 971

def zero : Binary64 := ⟨0, least⟩

/-- `num / den` divided by `2 ^ e`, as a numerator and a denominator. -/
def scaled (num den : Nat) (e : Int) : Nat × Nat :=
  if 0 ≤ e then (num, den * Nat.pow 2 e.toNat) else (num * Nat.pow 2 (-e).toNat, den)

/-- The quotient rounded to the nearest integer, ties to the even one. -/
def roundedQuotient (num den : Nat) : Nat :=
  let q := num / den
  let r := num % den
  if den < 2 * r ∨ (2 * r = den ∧ q % 2 = 1) then q + 1 else q

/-- The number nearest to `num / den`, if that is not too large. -/
def ofRatio (num den : Nat) : Option Binary64 :=
  if num = 0 then some zero
  else
    let guess := max ((num.log2 : Int) - (den.log2 : Int) - 53) least
    let p := scaled num den guess
    let e := if Nat.pow 2 53 ≤ p.1 / p.2 then guess + 1 else guess
    let p := scaled num den e
    let m := roundedQuotient p.1 p.2
    let x : Binary64 := if m = Nat.pow 2 53 then ⟨Nat.pow 2 52, e + 1⟩ else ⟨m, e⟩
    if x.exponent ≤ largest then some x else none

/-- The number as a ratio. -/
def ratio (x : Binary64) : Nat × Nat :=
  if 0 ≤ x.exponent then (x.mantissa * Nat.pow 2 x.exponent.toNat, 1) else (x.mantissa, Nat.pow 2 (-x.exponent).toNat)

/-- The number nearest to a power of ten. -/
def tenTo (n : Nat) : Option Binary64 := ofRatio (Nat.pow 10 n) 1

def mul (x y : Binary64) : Option Binary64 := ofRatio (x.ratio.1 * y.ratio.1) (x.ratio.2 * y.ratio.2)

def div (x y : Binary64) : Option Binary64 := ofRatio (x.ratio.1 * y.ratio.2) (x.ratio.2 * y.ratio.1)

/-- `x` divided by `10 ^ n`, in rounded steps of at most 308 decimal places; past two steps nothing is left. -/
def shrink (x : Binary64) (n : Nat) : Option Binary64 := do
  if n ≤ 308 then x.div (← tenTo n)
  else
    let y ← x.div (← tenTo 308)
    if n ≤ 616 then y.div (← tenTo (n - 308)) else pure zero

/-- The decimal `digits · 10 ^ exponent` as a number, by one rounding of the digits and one of the scaling. -/
def ofDecimal (digits : Nat) (exponent : Int) : Option Binary64 := do
  let x ← ofRatio digits 1
  if digits = 0 then pure zero
  else if 308 < exponent then none
  else if 0 ≤ exponent then x.mul (← tenTo exponent.toNat)
  else x.shrink (-exponent).toNat

/-! ### Writing -/

/-- The neighbour of the number on the grid of `10 ^ p` that reads back, if one does; the nearer of two. -/
def onGrid (x : Binary64) (p : Int) : Option Nat :=
  -- The number and the ends of what reads back as it, counted in quarters of its last place.
  let mid := 4 * x.mantissa
  let low := if x.mantissa = Nat.pow 2 52 ∧ least < x.exponent then mid - 1 else mid - 2
  let high := mid + 2
  let quarter := scaled 1 1 (2 - x.exponent)
  let ten := if 0 ≤ p then (Nat.pow 10 p.toNat, 1) else (1, Nat.pow 10 (-p).toNat)
  -- Over a common denominator, a step of the grid weighs `g` and a quarter weighs `w`.
  let g := ten.1 * quarter.2
  let w := quarter.1 * ten.2
  let inside (c : Nat) : Bool :=
    if x.mantissa % 2 = 0 then decide (low * w ≤ c * g ∧ c * g ≤ high * w)
    else decide (low * w < c * g ∧ c * g < high * w)
  let c := mid * w / g
  let below := mid * w - c * g
  let above := (c + 1) * g - mid * w
  match decide (0 < c) && inside c, inside (c + 1) with
  | true, true => some (if above < below ∨ (above = below ∧ c % 2 = 1) then c + 1 else c)
  | true, false => some c
  | false, true => some (c + 1)
  | false, false => none

/-- The fewest digits that read back, and their decimal exponent. -/
def shortest (x : Binary64) : Nat × Int :=
  let grid (i : Nat) : Int := 310 - (i : Int)
  ((List.range 660).findSome? fun i => (x.onGrid (grid i)).map fun c => (c, grid i)).getD (0, 0)

/-- An exponent, which has a sign in any case. -/
def exponentText (e : Int) : List Char := if e < 0 then (toString e).toList else '+' :: (toString e).toList

/-- The text of a number: positional from 10^-5 up to 10^16, with a digit after the point; one digit before the point
and a power of ten otherwise. -/
def text (negative : Bool) (x : Binary64) : String :=
  let (m, k) := x.shortest
  let ds := (toString m).toList
  let point : Int := ds.length + k
  let body :=
    if x.mantissa = 0 then "0.0".toList
    else if 0 ≤ k ∧ point ≤ 16 then ds ++ List.replicate k.toNat '0' ++ ".0".toList
    else if 0 < point ∧ point ≤ 16 then ds.take point.toNat ++ '.' :: ds.drop point.toNat
    else if -5 < point ∧ point ≤ 0 then "0.".toList ++ List.replicate (-point).toNat '0' ++ ds
    else ds.take 1 ++ (if ds.length = 1 then [] else '.' :: ds.drop 1) ++ 'e' :: exponentText (point - 1)
  String.ofList (if negative then '-' :: body else body)

example : (ofDecimal 15 (-1)).map (text true) = some "-1.5" := by decide +kernel
example : (ofDecimal 1 16).map (text false) = some "1e+16" := by decide +kernel
example : (ofDecimal 12 (-7)).map (text false) = some "1.2e-6" := by decide +kernel
example : ofDecimal 2 308 = none := by decide +kernel

end Binary64

end Rejoin
