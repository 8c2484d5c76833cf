import WeakComponents.Decimal.Natural

/-!
# Shortest decimals that read back

A finite binary64 number stands for the interval of reals that round to it. Its shortest decimal
is the one with the fewest significant digits inside that interval and, of those, the nearest to
the number; a tie goes to the even digit. Everything is computed on naturals: the number is
`mantissa * 2 ^ scale`, and for each count of digits its two neighbours on the decimal grid are
tried.
-/

namespace WeakComponents.Decimal

/-- The magnitude `mantissa * 2 ^ scale` of a binary64 number. -/
structure Binary where
  mantissa : Nat
  scale : Int
  /-- Whether the number below lies half as far away as the one above. -/
  narrowBelow : Bool

def Binary.ofBits (bits : UInt64) : Binary :=
  let fraction : Nat := bits.toNat % Nat.pow 2 52
  let exponent : Nat := bits.toNat / Nat.pow 2 52 % Nat.pow 2 11
  if exponent = 0 then ⟨fraction, -1074, false⟩
  else
    ⟨Nat.pow 2 52 + fraction, (exponent : Int) - 1075, fraction == 0 && decide (1 < exponent)⟩

/-- The decimal `significand * 10 ^ exponent`. -/
structure Scaled where
  significand : Nat
  exponent : Int
deriving DecidableEq

/-- A power with an integer exponent, as a numerator and a denominator. -/
def powers (base : Nat) (exponent : Int) : Nat × Nat :=
  if 0 ≤ exponent then (base.pow exponent.toNat, 1) else (1, base.pow (-exponent).toNat)

/--
The grid of multiples of `10 ^ exponent` meets the rounding interval of a number in the neighbour
just below it, the one just above it, both or none. The nearer neighbour inside is the answer; of
two equally near the even one.
-/
def Binary.onGrid? (number : Binary) (exponent : Int) : Option Scaled :=
  let (twosUp, twosDown) := powers 2 (number.scale - 2)
  let (tensUp, tensDown) := powers 10 exponent
  let unit := twosUp * tensDown
  let step := twosDown * tensUp
  let centre := 4 * number.mantissa * unit
  let low := (4 * number.mantissa - if number.narrowBelow then 1 else 2) * unit
  let high := (4 * number.mantissa + 2) * unit
  let closed := number.mantissa % 2 = 0
  let below := centre / step
  let lowFits := low < below * step ∨ (closed ∧ below * step = low)
  let highFits := (below + 1) * step < high ∨ (closed ∧ (below + 1) * step = high)
  let downward := centre - below * step
  let upward := (below + 1) * step - centre
  if lowFits ∧ (downward < upward ∨ (downward = upward ∧ below % 2 = 0) ∨ ¬ highFits) then
    some ⟨below, exponent⟩
  else if highFits then some ⟨below + 1, exponent⟩
  else none

/-- The exponent of the leading digit: the largest `e` with `10 ^ e` not above the number. -/
def Binary.leadingExponent (number : Binary) : Int :=
  let (twosUp, twosDown) := powers 2 number.scale
  let whole := number.mantissa * twosUp
  if twosDown ≤ whole then ((digits (whole / twosDown)).length : Int) - 1
  else
    let places := (List.range 400).find? fun places ↦ decide (twosDown ≤ whole * Nat.pow 10 places)
    Int.negOfNat (places.getD 400)

def Scaled.trim (fuel : Nat) (decimal : Scaled) : Scaled :=
  match fuel with
  | 0 => decimal
  | fuel + 1 =>
    if decimal.significand % 10 = 0 ∧ 0 < decimal.significand then
      trim fuel ⟨decimal.significand / 10, decimal.exponent + 1⟩
    else decimal

/-- The shortest decimal of a nonzero magnitude; seventeen digits always suffice. -/
def Binary.shortest (number : Binary) : Scaled :=
  let leading := number.leadingExponent
  let found := (List.range 18).findSome? fun (count : Nat) ↦ number.onGrid? (leading - count)
  (found.getD ⟨number.mantissa, 0⟩).trim 20

/--
The spelling of a finite number in a document: its shortest digits in positional notation with at
least one decimal when the leading digit stands for `10 ^ -5` up to `10 ^ 15`, and otherwise one
digit before the point and a signed exponent.
-/
def floatText (x : Float) : String :=
  let bits := x.toBits
  let sign := if bits.toNat / Nat.pow 2 63 = 1 then "-" else ""
  let number := Binary.ofBits bits
  if number.mantissa = 0 then sign ++ "0.0"
  else
    let decimal := number.shortest
    let run := digits decimal.significand
    let point : Int := run.length + decimal.exponent
    let body :=
      if 0 ≤ decimal.exponent ∧ point ≤ 16 then
        run ++ List.replicate decimal.exponent.toNat '0' ++ ['.', '0']
      else if 0 < point ∧ point ≤ 16 then
        run.take point.toNat ++ '.' :: run.drop point.toNat
      else if -5 < point ∧ point ≤ 0 then
        '0' :: '.' :: (List.replicate (-point).toNat '0' ++ run)
      else
        let exponent := point - 1
        let fraction := if run.length = 1 then [] else '.' :: run.drop 1
        run.take 1 ++ fraction ++ 'e' :: (if exponent < 0 then '-' else '+') ::
          digits exponent.natAbs
    sign ++ String.ofList body

end WeakComponents.Decimal
