import Flowchart.Json.Basic

/-!
The values of written numbers. A whole number that fits into 64 bits is an integer; every other
number is a float. A float is made from the leading digits that fit into 64 bits and a power of
ten, by one multiplication or division, so that its last bit is not always the nearest one.
-/
namespace Flowchart.Json

/-- The value of a number. -/
inductive Number where
  | integer (i : Int)
  | floating (x : Float)

/-- The value as a float. -/
def Number.toFloat : Number → Float
  | .integer i => if i < 0 then -i.natAbs.toUInt64.toFloat else i.natAbs.toUInt64.toFloat
  | .floating x => x

/-- The value of a decimal digit. -/
def digitValue (c : Char) : Nat := c.toNat - '0'.toNat

/-- The largest number of 64 bits. -/
def maxWord : Nat := Nat.pow 2 64 - 1

/-- Leading digits, times a power of ten. -/
structure Decimal where
  digits : Nat
  power : Int
  /-- A digit did not fit: the digits behind it are dropped. -/
  full : Bool

/-- Takes in the digits of the whole part; one that does not fit counts as a power of ten. -/
def Decimal.pushWhole (d : Decimal) (c : Char) : Decimal :=
  if !d.full && d.digits * 10 + digitValue c ≤ maxWord then
    { d with digits := d.digits * 10 + digitValue c }
  else { d with power := d.power + 1, full := true }

/-- Takes in the digits of the fraction; from the first that does not fit they are dropped. -/
def Decimal.pushFraction (d : Decimal) (c : Char) : Decimal :=
  if !d.full && d.digits * 10 + digitValue c ≤ maxWord then
    { d with digits := d.digits * 10 + digitValue c, power := d.power - 1 }
  else { d with full := true }

/-- A power of ten up to 10 ^ 308. -/
def powerOfTen (n : Nat) : Float := Float.ofScientific 1 false n

/-- `x · 10 ^ power`, if it is not too large. Powers below 10 ^ -308 are divided off in steps. -/
def scale : (steps : Nat) → (x : Float) → (power : Int) → Option Float
  | steps, x, power =>
    if power.natAbs ≤ 308 then
      if power < 0 then some (x / powerOfTen power.natAbs)
      else if (x * powerOfTen power.natAbs).isInf then none
      else some (x * powerOfTen power.natAbs)
    else if x == 0 then some x
    else if 0 < power then none
    else
      match steps with
      | 0 => some 0
      | steps + 1 => scale steps (x / powerOfTen 308) (power + 308)

/-- The value as a float, if it is not too large. -/
def Decimal.toFloat? (d : Decimal) : Option Float := scale 3 d.digits.toUInt64.toFloat d.power

/-- A written number cut into its parts. -/
structure Parts where
  negative : Bool
  whole : Text
  fraction : Option Text
  exponent : Option (Bool × Text)

/-- Cuts a written number at its sign, its point and its exponent. -/
def partsOf (written : Text) : Parts :=
  let negative := written.head? = some '-'
  let t := if negative then written.drop 1 else written
  let behindWhole := t.dropWhile Char.isDigit
  let fraction := match behindWhole with
    | '.' :: r => some (r.takeWhile Char.isDigit)
    | _ => none
  let exponent := match (behindWhole.dropWhile fun c => c = '.' || c.isDigit) with
    | _ :: '-' :: digits => some (true, digits)
    | _ :: '+' :: digits => some (false, digits)
    | _ :: digits => some (false, digits)
    | [] => none
  ⟨negative, t.takeWhile Char.isDigit, fraction, exponent⟩

/-- The value of a whole number, if it fits. -/
def integer? (negative : Bool) (digits : Text) : Option Int :=
  let n := digits.foldl (fun n c => n * 10 + digitValue c) 0
  if negative then if n = 0 || Nat.pow 2 63 < n then none else some (-n)
  else if maxWord < n then none else some n

/-- The largest exponent that is counted. -/
def maxExponent : Nat := Nat.pow 2 31 - 1

/-- The size of a number that is no integer, if it is not too large. -/
def Parts.float? (p : Parts) : Option Float :=
  let whole := p.whole.foldl Decimal.pushWhole ⟨0, 0, false⟩
  let mantissa := (p.fraction.getD []).foldl Decimal.pushFraction { whole with full := false }
  match p.exponent with
  | none => mantissa.toFloat?
  | some (negative, digits) =>
    let exponent := digits.foldl (fun n c => n * 10 + digitValue c) 0
    if maxExponent < exponent then if mantissa.digits = 0 || negative then some 0 else none
    else { mantissa with power := mantissa.power + if negative then -(exponent : Int) else exponent }.toFloat?

/-- The value of a written number; none if it is too large for a float. -/
def number? (written : Text) : Option Number :=
  let p := partsOf written
  let float := p.float?.map fun x => Number.floating (if p.negative then -x else x)
  if p.fraction.isNone && p.exponent.isNone then
    match integer? p.negative p.whole with
    | some i => some (.integer i)
    | none => float
  else float

end Flowchart.Json
