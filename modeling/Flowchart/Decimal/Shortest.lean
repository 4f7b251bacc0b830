import Flowchart.Text.Basic

/-!
The decimal text of a float: the fewest digits that read back as the same float, and of those
the nearest. All arithmetic is exact, on the float's bits.
-/
namespace Flowchart.Decimal

/-- A positive binary fraction `mantissa · 2 ^ exponent`, with the reals that round to it: half a
    step up, and half a step down, or a quarter where the steps below are finer. The ends
    themselves round to it when the mantissa is even. -/
structure Binary where
  mantissa : Nat
  exponent : Int
  /-- The steps below are half as wide. -/
  finerBelow : Bool
  deriving DecidableEq, Repr

/-- The value of a finite positive float of these bits. -/
def Binary.ofBits (bits : UInt64) : Binary :=
  let fraction := bits.toNat % Nat.pow 2 52
  let power : Nat := bits.toNat / Nat.pow 2 52 % Nat.pow 2 11
  if power = 0 then ⟨fraction, -1074, false⟩
  else ⟨Nat.pow 2 52 + fraction, (power : Int) - 1075, fraction = 0 && 1 < power⟩

/-- Decimal digits `digits · 10 ^ exponent`. -/
structure Digits where
  digits : Nat
  exponent : Int
  deriving DecidableEq, Repr

/-- Four times a binary fraction and the two ends of its interval over one denominator. -/
structure Quarters where
  value : Nat
  low : Nat
  high : Nat
  denominator : Nat
  closed : Bool

/-- The value and its interval as whole quarters of a step. -/
def Binary.quarters (b : Binary) : Quarters :=
  let scale := Nat.pow 2 b.exponent.toNat
  { value := 4 * b.mantissa * scale
    low := (4 * b.mantissa - if b.finerBelow then 1 else 2) * scale
    high := (4 * b.mantissa + 2) * scale
    denominator := 4 * Nat.pow 2 (-b.exponent).toNat
    closed := b.mantissa % 2 = 0 }

/-- The least `p` with value below `10 ^ p`, for a positive value. -/
def Quarters.magnitude (q : Quarters) : Int :=
  let above (p : Int) : Bool :=
    decide (q.value * Nat.pow 10 (-p).toNat < q.denominator * Nat.pow 10 p.toNat)
  let digits (n : Nat) : Int := (Nat.toDigits 10 n).length
  let guess := digits q.value - digits q.denominator
  if above guess then guess else guess + 1

/-- The multiple of `10 ^ exponent` that is nearest to the value among the two around it, if one
    of them lies in the interval; of two as near, the even one. -/
def Quarters.onGrid (q : Quarters) (exponent : Int) : Option Nat :=
  let up := Nat.pow 10 (-exponent).toNat
  let unit := q.denominator * Nat.pow 10 exponent.toNat
  let below := q.value * up / unit
  let inside (d : Nat) : Bool :=
    if q.closed then decide (q.low * up ≤ d * unit) && decide (d * unit ≤ q.high * up)
    else decide (q.low * up < d * unit) && decide (d * unit < q.high * up)
  let remainder := q.value * up - below * unit
  let lowerIsNearer := 2 * remainder < unit || (2 * remainder = unit && below % 2 = 0)
  match inside below, inside (below + 1) with
  | true, true => some (if lowerIsNearer then below else below + 1)
  | true, false => some below
  | false, true => some (below + 1)
  | false, false => none

/-- The fewest digits that lie in the interval; seventeen always do. -/
def Quarters.shortest (q : Quarters) : Digits :=
  let magnitude := q.magnitude
  let found := (List.range' 1 17).findSome? fun (n : Nat) =>
    (q.onGrid (magnitude - n)).map fun d => (⟨d, magnitude - n⟩ : Digits)
  found.getD ⟨0, 0⟩

/-- The digits without the zeros at their end. -/
def Digits.strip (d : Digits) : Nat → Digits
  | 0 => d
  | fuel + 1 =>
    if d.digits % 10 = 0 && d.digits ≠ 0 then Digits.strip ⟨d.digits / 10, d.exponent + 1⟩ fuel else d

/-- The text of a positive decimal. It is positional from 0.00001 on and below 10 ^ 16, with `.0`
    behind a whole number, and has an exponent with its sign otherwise. -/
def Digits.text (d : Digits) : Text :=
  let digits := Text.ofNat d.digits
  let point := d.exponent + digits.length
  if 0 ≤ d.exponent && point ≤ 16 then digits ++ List.replicate d.exponent.toNat '0' ++ ['.', '0']
  else if 0 < point && point ≤ 16 then digits.take point.toNat ++ '.' :: digits.drop point.toNat
  else if -5 < point && point ≤ 0 then '0' :: '.' :: List.replicate (-point).toNat '0' ++ digits
  else
    let power := point - 1
    let exponent := (if power < 0 then '-' else '+') :: Text.ofNat power.natAbs
    let fraction := digits.drop 1
    digits.take 1 ++ (if fraction.isEmpty then [] else '.' :: fraction) ++ 'e' :: exponent

/-- The text of a finite float. -/
def ofFloat (x : Float) : Text :=
  let bits := x.toBits
  let sign := if bits.toNat / Nat.pow 2 63 = 1 then ['-'] else []
  let b := Binary.ofBits bits
  if b.mantissa = 0 then sign ++ ['0', '.', '0']
  else sign ++ (b.quarters.shortest.strip 17).text

end Flowchart.Decimal
