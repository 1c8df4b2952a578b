import ProximityCert.Bytes

/-!
URL-safe base64 without padding. Reading is canonical: padding characters are foreign, a lone
final character is refused, and the bits that a short final group does not use must be zero.
-/

namespace ProximityCert.Base64Url

/-- The character of a value below sixty-four. -/
def symbol (n : Nat) : Char :=
  if n < 26 then Char.ofNat (65 + n)
  else if n < 52 then Char.ofNat (71 + n)
  else if n < 62 then Char.ofNat (n - 4)
  else if n = 62 then '-' else '_'

def value? (c : Char) : Option Nat :=
  if 'A' ≤ c ∧ c ≤ 'Z' then some (c.toNat - 65)
  else if 'a' ≤ c ∧ c ≤ 'z' then some (c.toNat - 71)
  else if '0' ≤ c ∧ c ≤ '9' then some (c.toNat + 4)
  else if c = '-' then some 62
  else if c = '_' then some 63
  else none

def encodeChars : Bytes → List Char
  | [] => []
  | [a] => [symbol (a.toNat / 4), symbol (a.toNat % 4 * 16)]
  | [a, b] => [symbol (a.toNat / 4), symbol (a.toNat % 4 * 16 + b.toNat / 16), symbol (b.toNat % 16 * 4)]
  | a :: b :: c :: rest =>
    symbol (a.toNat / 4) :: symbol (a.toNat % 4 * 16 + b.toNat / 16) ::
      symbol (b.toNat % 16 * 4 + c.toNat / 64) :: symbol (c.toNat % 64) :: encodeChars rest

def encode (bs : Bytes) : String := String.ofList (encodeChars bs)

/-- Groups of four values make three bytes; a final group of two or three makes one or two. -/
def decodeValues : List Nat → Option Bytes
  | [] => some []
  | [_] => none
  | [p, q] => if q % 16 = 0 then some [UInt8.ofNat (p * 4 + q / 16)] else none
  | [p, q, r] =>
    if r % 4 = 0 then some [UInt8.ofNat (p * 4 + q / 16), UInt8.ofNat (q % 16 * 16 + r / 4)] else none
  | p :: q :: r :: s :: rest =>
    (decodeValues rest).map fun tail =>
      UInt8.ofNat (p * 4 + q / 16) :: UInt8.ofNat (q % 16 * 16 + r / 4) :: UInt8.ofNat (r % 4 * 64 + s) :: tail

def decodeChars (cs : List Char) : Option Bytes := (cs.mapM value?).bind decodeValues

def decode (s : String) : Option Bytes := decodeChars s.toList

/-- Each symbol reads back as its value. -/
theorem value?_symbol : ∀ n < 64, value? (symbol n) = some n := by decide

theorem ofNat_eq_of_toNat {n : Nat} {b : UInt8} (h : n = b.toNat) : UInt8.ofNat n = b := by simp [h]

/-- Reading gives back what was written. -/
theorem decodeChars_encodeChars (bs : Bytes) : decodeChars (encodeChars bs) = some bs := by
  fun_induction encodeChars bs with
  | case1 => rfl
  | case2 a =>
    have ha := a.toNat_lt
    simp only [decodeChars, List.mapM_cons, List.mapM_nil, value?_symbol _ (show a.toNat / 4 < 64 by omega),
      value?_symbol _ (show a.toNat % 4 * 16 < 64 by omega), Option.bind_eq_bind, Option.bind_some, Option.pure_def,
      decodeValues]
    rw [if_pos (by omega), ofNat_eq_of_toNat (b := a) (by omega)]
  | case3 a b =>
    have ha := a.toNat_lt
    have hb := b.toNat_lt
    simp only [decodeChars, List.mapM_cons, List.mapM_nil, value?_symbol _ (show a.toNat / 4 < 64 by omega),
      value?_symbol _ (show a.toNat % 4 * 16 + b.toNat / 16 < 64 by omega),
      value?_symbol _ (show b.toNat % 16 * 4 < 64 by omega), Option.bind_eq_bind, Option.bind_some, Option.pure_def,
      decodeValues]
    rw [if_pos (by omega), ofNat_eq_of_toNat (b := a) (by omega), ofNat_eq_of_toNat (b := b) (by omega)]
  | case4 a b c rest ih =>
    have ha := a.toNat_lt
    have hb := b.toNat_lt
    have hc := c.toNat_lt
    simp only [decodeChars, Option.bind_eq_some_iff] at ih ⊢
    obtain ⟨values, hv, hd⟩ := ih
    refine ⟨a.toNat / 4 :: (a.toNat % 4 * 16 + b.toNat / 16) :: (b.toNat % 16 * 4 + c.toNat / 64) ::
      (c.toNat % 64) :: values, ?_, ?_⟩
    · simp [value?_symbol _ (show a.toNat / 4 < 64 by omega),
        value?_symbol _ (show a.toNat % 4 * 16 + b.toNat / 16 < 64 by omega),
        value?_symbol _ (show b.toNat % 16 * 4 + c.toNat / 64 < 64 by omega),
        value?_symbol _ (show c.toNat % 64 < 64 by omega), hv]
    · simp only [decodeValues, hd, Option.map_some]
      rw [ofNat_eq_of_toNat (b := a) (by omega), ofNat_eq_of_toNat (b := b) (by omega),
        ofNat_eq_of_toNat (b := c) (by omega)]

@[simp] theorem decode_encode (bs : Bytes) : decode (encode bs) = some bs := by
  simp [decode, encode, decodeChars_encodeChars]

end ProximityCert.Base64Url
