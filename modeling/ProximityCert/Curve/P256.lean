import ProximityCert.Bytes

/-!
The curve P-256: arithmetic modulo its field prime, points in projective coordinates with the
complete addition law for curves with `a = -3`, and the compressed and uncompressed forms of points.
-/

namespace ProximityCert.P256

/-- The prime of the coordinate field. -/
def fieldPrime : Nat := 0xffffffff00000001000000000000000000000000ffffffffffffffffffffffff

/-- The prime order of the group of points. -/
def order : Nat := 0xffffffff00000000ffffffffffffffffbce6faada7179e84f3b9cac2fc632551

/-- The constant coefficient of the curve equation `y² = x³ - 3x + b`. -/
def coefficient : Nat := 0x5ac635d8aa3a93e7b3ebbd55769886bc651d06b0cc53b0f63bce3c3e27d2604b

def coordinateLength : Nat := 32

/-- `base ^ exponent` modulo `modulus`, for exponents of at most `bits` bits. -/
def power (modulus base exponent : Nat) : (bits : Nat) → Nat
  | 0 => 1 % modulus
  | bits + 1 =>
    let square := power modulus base (exponent / 2) bits
    if exponent % 2 = 1 then square * square % modulus * base % modulus else square * square % modulus

/-- The inverse modulo a prime of at most 256 bits, by Fermat's theorem; zero has inverse zero. -/
def inverse (modulus x : Nat) : Nat := power modulus x (modulus - 2) 256

def add (x y : Nat) : Nat := (x + y) % fieldPrime
def sub (x y : Nat) : Nat := (x + (fieldPrime - y)) % fieldPrime
def mul (x y : Nat) : Nat := x * y % fieldPrime

/-- The right-hand side of the curve equation. -/
def rightSide (x : Nat) : Nat := add (sub (mul (mul x x) x) (mul 3 x)) coefficient

/-- A point of the curve other than the neutral one. -/
structure Affine where
  x : Nat
  y : Nat
  deriving DecidableEq

/-- Projective coordinates; the neutral point has `z = 0`. -/
structure Projective where
  x : Nat
  y : Nat
  z : Nat
  deriving DecidableEq

namespace Projective

def neutral : Projective := ⟨0, 1, 0⟩

def ofAffine (p : Affine) : Projective := ⟨p.x, p.y, 1⟩

/-- Addition without exceptional cases; it also doubles. -/
def add (p q : Projective) : Projective :=
  let xx := mul p.x q.x
  let yy := mul p.y q.y
  let zz := mul p.z q.z
  let xy := P256.add (mul p.x q.y) (mul p.y q.x)
  let yz := P256.add (mul p.y q.z) (mul p.z q.y)
  let xz := P256.add (mul p.x q.z) (mul p.z q.x)
  let shift := mul 3 (sub xz (mul coefficient zz))
  let low := sub yy shift
  let high := P256.add yy shift
  let slope := mul 3 (sub xx zz)
  let cross := mul 3 (sub (sub (mul coefficient xz) (mul 3 zz)) xx)
  ⟨sub (mul xy high) (mul yz cross), P256.add (mul high low) (mul slope cross),
   P256.add (mul yz low) (mul xy slope)⟩

/-- The multiple by the number that the `bits` lowest bits of `scalar` spell. -/
def multiple (scalar : Nat) (p : Projective) : (bits : Nat) → Projective → Projective
  | 0, sum => sum
  | bits + 1, sum =>
    let doubled := sum.add sum
    multiple scalar p bits (if scalar.testBit bits then doubled.add p else doubled)

/-- `none` for the neutral point. -/
def toAffine? (p : Projective) : Option Affine :=
  if p.z = 0 then none
  else
    let i := inverse fieldPrime p.z
    some ⟨mul p.x i, mul p.y i⟩

end Projective

def generator : Affine :=
  ⟨0x6b17d1f2e12c4247f8bce6e563a440f277037d812deb33a0f4a13945d898c296,
   0x4fe342e2fe1a7f9b8ee7eb4a7c0f9e162bce33576b315ececbb6406837bf51f5⟩

/-- The multiple of a point by a scalar below 2^256. -/
def scalarMultiple (scalar : Nat) (p : Affine) : Projective :=
  Projective.multiple scalar (.ofAffine p) 256 .neutral

namespace Affine

def uncompressed (p : Affine) : Bytes :=
  0x04 :: (Bytes.ofNat coordinateLength p.x ++ Bytes.ofNat coordinateLength p.y)

def compressed (p : Affine) : Bytes :=
  (if p.y % 2 = 1 then 0x03 else 0x02) :: Bytes.ofNat coordinateLength p.x

@[simp] theorem length_uncompressed (p : Affine) : p.uncompressed.length = 65 := by
  simp [uncompressed, coordinateLength]

/-- A root of the right-hand side at `x`, if `x` is a reduced coordinate of a point. -/
def root? (x : Nat) : Option Nat :=
  let square := rightSide x
  let y := power fieldPrime square ((fieldPrime + 1) / 4) 256
  if x < fieldPrime ∧ mul y y = square then some y else none

/-- The point at `x` whose second coordinate has the given parity. -/
def ofParity? (x parity : Nat) : Option Affine :=
  (root? x).map fun y => ⟨x, if y % 2 = parity then y else sub 0 y⟩

/-- Reads a point. A leading 4 announces both coordinates, 2 and 3 the parity of the second, and 5
that the smaller of the two second coordinates is meant. The neutral point is refused. -/
def ofBytes? (bs : Bytes) : Option Affine :=
  match bs with
  | form :: body =>
    let x := Bytes.toNat (body.take coordinateLength)
    let y := Bytes.toNat (body.drop coordinateLength)
    if form = 0x04 ∧ body.length = 2 * coordinateLength then
      if x < fieldPrime ∧ y < fieldPrime ∧ mul y y = rightSide x then some ⟨x, y⟩ else none
    else if body.length ≠ coordinateLength then none
    else if form = 0x02 then ofParity? x 0
    else if form = 0x03 then ofParity? x 1
    else if form = 0x05 then (root? x).map fun y => ⟨x, min y (sub 0 y)⟩
    else none
  | [] => none

end Affine
end ProximityCert.P256
