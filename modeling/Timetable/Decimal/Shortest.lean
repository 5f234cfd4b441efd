/-!
# Shortest decimals

A binary floating-point number stands for all reals that round to it. Its shortest decimal is the
one with the fewest digits among them, and of those with as few digits the nearest to the number.
Digits are found in exact integer arithmetic: on the grid of decimals with `n` digits only the two
neighbours of the number need to be tried.
-/

namespace Timetable

/-- A positive decimal in scientific form: `digits` with the point behind the first digit, times
ten to the power `exponent`. -/
structure Decimal where
  digits : List Char
  exponent : Int
  deriving DecidableEq, Repr

namespace Decimal

/-- A finite positive binary number `mantissa * 2 ^ (exponent)`. -/
structure Binary where
  mantissa : Nat
  exponent : Int

/-- The value of the sign among the bits of a number: two to the 63rd. -/
def signBit : Nat := 9223372036854775808

/-- The value of the leading digit of a mantissa: two to the 52nd. -/
def leadingBit : Nat := 4503599627370496

/-- The finite positive number with these bits; the sign bit is ignored. -/
def Binary.ofBits (bits : Nat) : Binary :=
  let fraction := bits % leadingBit
  let power := bits / leadingBit % 2048
  if power = 0 then ⟨fraction, -1074⟩ else ⟨fraction + leadingBit, (power : Int) - 1075⟩

/-- `n * base ^ power` as a numerator when the power is not negative. -/
def raise (base n : Nat) (power : Int) : Nat := n * Nat.pow base power.toNat

/-- The exponent of ten of the first digit of `num / den`. -/
def leadingPower (num den : Nat) : Int :=
  if den ≤ num then ((Nat.toDigits 10 (num / den)).length : Int) - 1
  else
    let places := (Nat.toDigits 10 (den / num)).length
    -- `10 ^ (places - 1) ≤ den / num < 10 ^ places`
    if den ≤ raise 10 num (places - 1) then -((places : Int) - 1) else -(places : Int)

/-- The reals that round to a binary number: bounds in units of a quarter of its last place, with
the ends included exactly when the mantissa is even. -/
structure Neighbourhood where
  low : Nat
  value : Nat
  high : Nat
  closed : Bool

/-- The reals that round to `b`. Below a power of two the gap is half as wide. -/
def Binary.neighbourhood (b : Binary) : Neighbourhood where
  low := if b.mantissa = leadingBit ∧ -1074 < b.exponent then 4 * b.mantissa - 1
    else 4 * b.mantissa - 2
  value := 4 * b.mantissa
  high := 4 * b.mantissa + 2
  closed := b.mantissa % 2 = 0

/-- Whether `d * scale` lies in the neighbourhood, whose bounds are in units of `unit`. -/
def Neighbourhood.holds (n : Neighbourhood) (unit scale d : Nat) : Bool :=
  if n.closed then n.low * unit ≤ d * scale && d * scale ≤ n.high * unit
  else n.low * unit < d * scale && d * scale < n.high * unit

/-- The distance of two natural numbers. -/
def gap (a b : Nat) : Nat := (a - b) + (b - a)

/-- The best decimal on the grid in which one step is `scale`, if one lies in the neighbourhood. -/
def Neighbourhood.onGrid (n : Neighbourhood) (unit scale : Nat) : Option Nat :=
  let below := n.value * unit / scale
  let above := below + 1
  match n.holds unit scale below, n.holds unit scale above with
  | true, true =>
    if gap (above * scale) (n.value * unit) < gap (below * scale) (n.value * unit) then some above
    else some below
  | true, false => some below
  | false, true => some above
  | false, false => none

/-- The first grid, from `count` digits on, on which a decimal lies in the neighbourhood. The grid
with 17 digits always has one. -/
def searchGrids (n : Neighbourhood) (unit : Int) (leading : Int) : Nat → Nat → Nat × Int
  | _, 0 => (0, 0)
  | count, tries + 1 =>
    let step := leading - count + 1
    -- both sides are multiplied until neither power is negative
    let twos := raise 2 1 unit * raise 10 1 (-step)
    let tens := raise 10 1 step * raise 2 1 (-unit)
    match n.onGrid twos tens with
    | some d => (d, step)
    | none => searchGrids n unit leading (count + 1) tries

/-- The digits without the zeros at their end. -/
def dropZeros (digits : List Char) : List Char := (digits.reverse.dropWhile (· = '0')).reverse

/-- The shortest decimal of a finite positive binary number. -/
def Binary.shortest (b : Binary) : Decimal :=
  let unit := b.exponent - 2
  let num := raise 2 (4 * b.mantissa) unit
  let den := raise 2 1 (-unit)
  let (d, step) := searchGrids b.neighbourhood unit (leadingPower num den) 1 17
  let digits := Nat.toDigits 10 d
  ⟨dropZeros digits, step + digits.length - 1⟩

end Decimal

/-- How the decimals of a format are laid out: between the two exponents of ten the point is
written in place, elsewhere an exponent with its sign follows the digits. -/
structure DecimalLayout where
  leastPlain : Int
  greatestPlain : Int

namespace DecimalLayout

/-- A decimal written in place: at least one digit stands on each side of the point. -/
def plain (d : Decimal) : List Char :=
  if d.exponent < 0 then
    ['0', '.'] ++ List.replicate ((-d.exponent).toNat - 1) '0' ++ d.digits
  else
    let whole := d.exponent.toNat + 1
    let padded := d.digits ++ List.replicate (whole - d.digits.length) '0'
    padded.take whole ++ ['.'] ++ (if padded.length ≤ whole then ['0'] else padded.drop whole)

/-- A decimal with its exponent. -/
def scientific (d : Decimal) : List Char :=
  let point := if d.digits.length ≤ 1 then [] else ['.']
  d.digits.take 1 ++ point ++ d.digits.drop 1 ++ ['e', if d.exponent < 0 then '-' else '+'] ++
    Nat.toDigits 10 d.exponent.natAbs

/-- The text of a finite floating-point number. -/
def write (l : DecimalLayout) (x : Float) : String :=
  let bits := x.toBits.toNat
  let sign := if bits < Decimal.signBit then [] else ['-']
  let magnitude := bits % Decimal.signBit
  if magnitude = 0 then String.ofList (sign ++ ['0', '.', '0'])
  else
    let d := (Decimal.Binary.ofBits magnitude).shortest
    let body := if l.leastPlain ≤ d.exponent ∧ d.exponent ≤ l.greatestPlain then plain d
      else scientific d
    String.ofList (sign ++ body)

end DecimalLayout

end Timetable
