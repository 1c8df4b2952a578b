/-!
Byte strings are lists of octets. Numbers are written big-endian in a fixed width; the width law
holds for every number, and the reading law for every number that fits.
-/

namespace ProximityCert

abbrev Bytes := List UInt8

namespace Bytes

/-- The big-endian number written by a byte string; the empty string is zero. -/
def toNat (bs : Bytes) : Nat := bs.foldl (fun n b => n * 256 + b.toNat) 0

/-- The last `width` base-256 digits of `n`, most significant first. -/
def ofNat : (width : Nat) → (n : Nat) → Bytes
  | 0, _ => []
  | width + 1, n => ofNat width (n / 256) ++ [UInt8.ofNat n]

@[simp] theorem length_ofNat (width n : Nat) : (ofNat width n).length = width := by
  induction width generalizing n with
  | zero => rfl
  | succ width ih => simp [ofNat, ih]

theorem toNat_append_singleton (bs : Bytes) (b : UInt8) :
    toNat (bs ++ [b]) = toNat bs * 256 + b.toNat := by simp [toNat]

theorem toNat_ofNat {width n : Nat} (h : n < Nat.pow 256 width) : toNat (ofNat width n) = n := by
  induction width generalizing n with
  | zero => simp_all [ofNat, toNat]
  | succ width ih =>
    have h : n < Nat.pow 256 width * 256 := h
    rw [ofNat, toNat_append_singleton, ih (Nat.div_lt_of_lt_mul (by omega))]
    simp
    omega

/-- Bytewise exclusive or, as long as the shorter argument. -/
def xor (a b : Bytes) : Bytes := List.zipWith (· ^^^ ·) a b

/-- Consecutive blocks of `size` bytes; the last one may be shorter. -/
def chunks (size : Nat) (bs : Bytes) : List Bytes :=
  go bs.length bs
where
  /-- The count bounds the number of blocks still to be cut. -/
  go : Nat → Bytes → List Bytes
    | 0, _ => []
    | fuel + 1, bs => if bs.isEmpty then [] else bs.take size :: go fuel (bs.drop size)

/-- The UTF-8 form of a text. -/
def ofText (s : String) : Bytes := s.toUTF8.data.toList

/-- The text that the bytes spell in UTF-8, if they are well formed. -/
def toText? (bs : Bytes) : Option String := String.fromUTF8? ⟨bs.toArray⟩

@[simp] theorem toText?_ofText (s : String) : toText? (ofText s) = some s := by
  simp [toText?, ofText, String.fromUTF8?, s.isValidUTF8]
  rfl

end Bytes
end ProximityCert
