import SchemaAtlas.Text.Basic

/-!
# Binary floating-point numbers of 64 bits, in exact arithmetic

A finite number is a significand times a power of two. Reading rounds a ratio of naturals to the
nearest number, ties to the even significand; writing takes the fewest digits that read back. No
step uses machine floating point, so both can be computed inside a proof.
-/

namespace SchemaAtlas

/-- A binary floating-point number; the value of `finite s m e` is `± m · 2 ^ e`, negative if `s`
holds. -/
inductive Binary64 where
  | finite (negative : Bool) (significand : Nat) (exponent : Int)
  | infinite (negative : Bool)
  | notANumber
  deriving DecidableEq, Repr, Inhabited

namespace Binary64

def minExponent : Int := -1074

def maxExponent : Int := 971

def ratio (a : Nat) (e : Int) : Nat × Nat :=
  if 0 ≤ e then (a * Nat.pow 2 e.toNat, 1) else (a, Nat.pow 2 (-e).toNat)

def decimalRatio (a : Nat) (e : Int) : Nat × Nat :=
  if 0 ≤ e then (a * Nat.pow 10 e.toNat, 1) else (a, Nat.pow 10 (-e).toNat)

/-- The quotient rounded to the nearest natural, ties to the even one. -/
def roundDiv (numerator denominator : Nat) : Nat :=
  let q := numerator / denominator
  let twice := 2 * (numerator % denominator)
  if twice < denominator || (twice == denominator && q % 2 == 0) then q else q + 1

/-- The exponent at which a positive ratio has a significand of 53 bits, or the least exponent. -/
def exponentOf (numerator denominator : Nat) : Int :=
  let guess := max minExponent ((numerator.log2 : Int) - denominator.log2 - 53)
  let (n, d) := ratio numerator (-guess)
  if n / (d * denominator) < Nat.pow 2 53 then guess else guess + 1

/-- The number nearest to a ratio, ties to the even significand. -/
def ofRatio (negative : Bool) (numerator denominator : Nat) : Binary64 :=
  if numerator = 0 then .finite negative 0 minExponent
  else
    let e := exponentOf numerator denominator
    let (n, d) := ratio numerator (-e)
    let m := roundDiv n (d * denominator)
    let (m, e) := if m = Nat.pow 2 53 then (Nat.pow 2 52, e + 1) else (m, e)
    if maxExponent < e then .infinite negative else .finite negative m e

def digitCount (n : Nat) : Nat := (Nat.toDigits 10 n).length

/-- The number nearest to `digits · 10 ^ exponent`. Exponents far outside the range of finite
numbers are answered without computing the power. -/
def ofDecimal (negative : Bool) (digits : Nat) (exponent : Int) : Binary64 :=
  if digits = 0 then .finite negative 0 minExponent
  else
    let magnitude := (digitCount digits : Int) + exponent
    if 310 < magnitude then .infinite negative
    else if magnitude < -330 then .finite negative 0 minExponent
    else
      let (n, d) := decimalRatio digits exponent
      ofRatio negative n d

/-- The value, if it is an integer. -/
def toInt? : Binary64 → Option Int
  | .finite negative m e =>
    let (n, d) := ratio m e
    if n % d = 0 then
      let value : Int := (n / d : Nat)
      some (if negative then -value else value)
    else none
  | _ => none

/-! ## The fewest digits that read back -/

/-- The reals that round to `m · 2 ^ e`, as two numerators over `2 ^ (2 - e)`: halfway to the
neighbour on either side. Below a power of two the neighbour is nearer. -/
def interval (m : Nat) (e : Int) : Nat × Nat :=
  (if m = Nat.pow 2 52 ∧ minExponent < e then 4 * m - 1 else 4 * m - 2, 4 * m + 2)

/-- Decimal digits and the place of the point: `0.digits · 10 ^ point`. -/
structure Digits where
  digits : Nat
  point : Int
  deriving DecidableEq, Repr

/-- The place of the point of a positive ratio: the least `k` with a value below `10 ^ k`. -/
def pointOf (numerator denominator : Nat) : Int :=
  if denominator ≤ numerator then digitCount (numerator / denominator)
  else 1 - (digitCount (denominator / numerator) : Int)

/-- Whether `candidate · 10 ^ q` rounds to `m · 2 ^ e`; an end of the interval does so iff `m` is
even. -/
def readsBack (m : Nat) (e : Int) (candidate : Nat) (q : Int) : Bool :=
  let (low, high) := interval m e
  let (a, b) := decimalRatio candidate q
  let (_, d) := ratio 1 (e - 2)
  let (s, _) := ratio 1 (e - 2)
  let value := a * d
  let low := low * s * b
  let high := high * s * b
  if m % 2 = 0 then low ≤ value && value ≤ high else low < value && value < high

/-- The nearer of the value's two neighbours on the grid of `count` digits that reads back, if any
does. -/
def onGrid (m : Nat) (e : Int) (point : Int) (count : Nat) : Option Nat :=
  let q := point - count
  let (n, d) := ratio m e
  let (a, b) := decimalRatio 1 (-q)
  let below := n * a / (d * b)
  let rest := n * a % (d * b)
  let lower := readsBack m e below q
  let upper := readsBack m e (below + 1) q
  let nearerBelow := 2 * rest < d * b || (2 * rest == d * b && below % 2 == 0)
  if lower && (nearerBelow || !upper) then some below
  else if upper then some (below + 1)
  else none

/-- The first grid from `count` digits on that holds a decimal that reads back; seventeen digits
are always enough. -/
def shortestFrom (m : Nat) (e : Int) (point : Int) : Nat → Nat → Digits
  | 0, count => ⟨(onGrid m e point count).getD 0, point - count⟩
  | more + 1, count =>
    match onGrid m e point count with
    | some d => ⟨d, point - count⟩
    | none => shortestFrom m e point more (count + 1)

def trimZeros (digits : List Char) : List Char :=
  (digits.reverse.dropWhile (· == '0')).reverse

/-- The digits of `m · 2 ^ e`, without zeros at the end, and the place of the point. -/
def shortest (m : Nat) (e : Int) : List Char × Int :=
  let (n, d) := ratio m e
  let found := shortestFrom m e (pointOf n d) 16 1
  let all := Nat.toDigits 10 found.digits
  (trimZeros all, found.point + all.length)

def zeros (n : Nat) : List Char := List.replicate n '0'

/-- A finite positive number is written with a point while the point stands at most three zeros
before the first digit or sixteen digits after it; otherwise with one digit before the point and an
exponent of at least two digits. -/
def written (digits : List Char) (point : Int) : List Char :=
  if -4 < point && point ≤ 16 then
    if point ≤ 0 then '0' :: '.' :: zeros (-point).toNat ++ digits
    else
      let k := point.toNat
      if digits.length ≤ k then digits ++ zeros (k - digits.length) ++ ['.', '0']
      else digits.take k ++ '.' :: digits.drop k
  else
    let exponent := point - 1
    let magnitude := Nat.toDigits 10 exponent.natAbs
    digits.take 1 ++ (if digits.length ≤ 1 then [] else '.' :: digits.drop 1)
      ++ 'e' :: (if exponent < 0 then '-' else '+') :: zeros (2 - magnitude.length) ++ magnitude

/-- The text of a number: the fewest digits that read back. -/
def toText : Binary64 → Text
  | .finite negative m e =>
    let body : List Char :=
      if m = 0 then ['0', '.', '0']
      else
        let (digits, point) := shortest m e
        written digits point
    ((if negative then ['-'] else []) ++ body).map CodePoint.ofChar
  | .infinite negative => if negative then "-inf" else "inf"
  | .notANumber => "nan"

end Binary64
end SchemaAtlas
