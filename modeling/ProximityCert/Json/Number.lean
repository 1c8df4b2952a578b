import ProximityCert.Rounding

/-!
Numbers with a fraction or outside the 64-bit integers, as binary floating point of 53 significant
bits: the value nearest to a decimal spelling, and the shortest decimal that reads back.
-/

namespace ProximityCert.Json

/-- The finite number `± mantissa · 2 ^ exponent`, mantissa below 2^53 and exponent at least -1074,
in the one form whose mantissa is at least 2^52 or whose exponent is least. -/
structure Real where
  negative : Bool
  mantissa : Nat
  exponent : Int
  deriving DecidableEq

namespace Real

def minExponent : Int := -1074
def maxExponent : Int := 971

/-- `n / d · 2 ^ -e` as a quotient of whole numbers. -/
def scaled (n d : Nat) (e : Int) : Nat × Nat :=
  if 0 ≤ e then (n, d * Nat.pow 2 e.toNat) else (n * Nat.pow 2 (-e).toNat, d)

/-- The exponent at which a quotient has 53 whole bits, or the least one. -/
def exponentOf (n d : Nat) : Int :=
  let estimate : Int := (Nat.log2 n : Int) - (Nat.log2 d : Int) - 53
  let (a, b) := scaled n d estimate
  max minExponent (if a / b < Nat.pow 2 53 then estimate else estimate + 1)

/-- Rounds a quotient of positive `d`; `none` if it is too large. -/
def round? (n d : Nat) : Option (Nat × Int) :=
  if n = 0 then some (0, minExponent)
  else
    let e := exponentOf n d
    let (a, b) := scaled n d e
    let m := Rounding.nearest a b
    let (m, e) := if m = Nat.pow 2 53 then (Nat.pow 2 52, e + 1) else (m, e)
    if e > maxExponent then none else some (m, e)

/-- The quotient of whole numbers that a rounded value is. -/
def quotient (m : Nat) (e : Int) : Nat × Nat :=
  if 0 ≤ e then (m * Nat.pow 2 e.toNat, 1) else (m, Nat.pow 2 (-e).toNat)

/-- The largest power of ten that is rounded once. -/
def maxPower : Nat := 308

/-- A rounded power of ten, and the quotient it is. -/
def powerOfTen (k : Nat) : Nat × Nat :=
  match round? (Nat.pow 10 k) 1 with
  | some (m, e) => quotient m e
  | none => (Nat.pow 10 k, 1)

/-- `digits · 10 ^ exponent`: the digits and the power of ten are rounded, then their product or
quotient. Exponents below the least power divide more than once. -/
def ofDecimal? (digits : Nat) (exponent : Int) : Option (Nat × Int) :=
  (round? digits 1).bind fun (m, e) => go 4 m e exponent
where
  go : Nat → Nat → Int → Int → Option (Nat × Int)
    | 0, _, _, _ => some (0, minExponent)
    | fuel + 1, m, e, exponent =>
      let (a, b) := quotient m e
      if m = 0 then some (0, minExponent)
      else if exponent.natAbs ≤ maxPower then
        let (c, d) := powerOfTen exponent.natAbs
        if 0 ≤ exponent then round? (a * c) (b * d) else round? (a * d) (b * c)
      else if 0 ≤ exponent then none
      else
        let (c, d) := powerOfTen maxPower
        match round? (a * d) (b * c) with
        | some (m, e) => go fuel m e (exponent + maxPower)
        | none => none

/-- Whether `digits · 10 ^ k` lies among the values that round to `m · 2 ^ e`. -/
def roundsTo (m : Nat) (e : Int) (digits : Nat) (k : Int) : Bool :=
  let (n, d) := if 0 ≤ k then (digits * Nat.pow 10 k.toNat, 1) else (digits, Nat.pow 10 (-k).toNat)
  round? n d = some (m, e)

/-- The floor of `log10` of a positive quotient. -/
def decimalOrder (n d : Nat) : Int :=
  if d ≤ n then ((toString (n / d)).length : Int) - 1
  else
    let k := (toString (d / n)).length
    if d ≤ n * Nat.pow 10 (k - 1) then -((k : Int) - 1) else -(k : Int)

/-- The decimal of `count` digits below the value and whether the next one above is nearer, for the
first count whose grid has a point that reads back. -/
def shortestFrom (m : Nat) (e : Int) (order : Int) : (tries count : Nat) → Nat × Int
  | 0, _ => (m, e)
  | tries + 1, count =>
    let (n, d) := quotient m e
    let k : Int := order - (count : Int) + 1
    let (n, d) := if 0 ≤ k then (n, d * Nat.pow 10 k.toNat) else (n * Nat.pow 10 (-k).toNat, d)
    let low := n / d
    let near := Rounding.nearest n d
    let far := if near = low then low + 1 else low
    if roundsTo m e near k then (near, k)
    else if roundsTo m e far k then (far, k)
    else shortestFrom m e order tries (count + 1)

/-- Moves trailing zeros of the digits into the exponent. -/
def trim : (fuel : Nat) → Nat → Int → Nat × Int
  | 0, digits, k => (digits, k)
  | fuel + 1, digits, k => if digits % 10 = 0 ∧ digits ≠ 0 then trim fuel (digits / 10) (k + 1) else (digits, k)

/-- The fewest digits that read back, with their exponent of ten. -/
def shortest (m : Nat) (e : Int) : Nat × Int :=
  let (n, d) := quotient m e
  let (digits, k) := shortestFrom m e (decimalOrder n d) 17 1
  trim 20 digits k

/-- The last order of magnitude written positionally, and the first small one that is not. -/
def positionalBelow : Int := 16
def positionalAbove : Int := -5

/-- An exponent of ten with its sign, without padding. -/
def renderExponent (n : Int) : String := (if 0 ≤ n then "e+" else "e") ++ toString n

/-- Positional between 10^-5 and 10^16, with `.0` on whole numbers; otherwise one digit before the
point and a signed exponent. -/
def render (x : Real) : String :=
  let sign := if x.negative then "-" else ""
  if x.mantissa = 0 then sign ++ "0.0"
  else
    let (digits, k) := shortest x.mantissa x.exponent
    let text := toString digits
    let order : Int := text.length + k
    sign ++
      (if 0 ≤ k ∧ order ≤ positionalBelow then text ++ String.ofList (List.replicate k.toNat '0') ++ ".0"
      else if 0 < order ∧ order ≤ positionalBelow then
        String.ofList (text.toList.take order.toNat) ++ "." ++ String.ofList (text.toList.drop order.toNat)
      else if positionalAbove < order ∧ order ≤ 0 then
        "0." ++ String.ofList (List.replicate (-order).toNat '0') ++ text
      else if text.length = 1 then text ++ renderExponent (order - 1)
      else
        String.ofList (text.toList.take 1) ++ "." ++ String.ofList (text.toList.drop 1) ++ renderExponent (order - 1))

end Real
end ProximityCert.Json
