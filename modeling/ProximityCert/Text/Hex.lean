import ProximityCert.Bytes

/-!
Hexadecimal text: two digits a byte, written in lower case and read in either case. Reading is
positional, so a bad digit is reported with the place where it stands.
-/

namespace ProximityCert.Hex

/-- The digit of a value below sixteen. -/
def digit (n : Nat) : Char := ['0', '1', '2', '3', '4', '5', '6', '7', '8', '9', 'a', 'b', 'c', 'd', 'e', 'f'].getD n '?'

/-- The value of a digit. -/
def value? (c : Char) : Option Nat :=
  if '0' ≤ c ∧ c ≤ '9' then some (c.toNat - 48)
  else if 'a' ≤ c ∧ c ≤ 'f' then some (c.toNat - 87)
  else if 'A' ≤ c ∧ c ≤ 'F' then some (c.toNat - 55)
  else none

/-- The value of an octet that is a digit in ASCII. -/
def octetValue? (b : UInt8) : Option Nat := value? (Char.ofUInt8 b)

def encodeChars : Bytes → List Char
  | [] => []
  | b :: rest => digit (b.toNat / 16) :: digit (b.toNat % 16) :: encodeChars rest

def encode (bs : Bytes) : String := String.ofList (encodeChars bs)

inductive Malformed | oddLength | badDigit (byte : UInt8) (position : Nat)
  deriving DecidableEq

/-- Reads digit pairs; `position` is the place of the first remaining digit. -/
def decodePairs (position : Nat) : Bytes → Except Malformed Bytes
  | hi :: lo :: rest =>
    match octetValue? hi, octetValue? lo with
    | none, _ => .error (.badDigit hi position)
    | some _, none => .error (.badDigit lo (position + 1))
    | some h, some l => (decodePairs (position + 2) rest).map (UInt8.ofNat (h * 16 + l) :: ·)
  | _ => .ok []

/-- An odd number of digits is reported before any bad digit. -/
def decode (digits : Bytes) : Except Malformed Bytes :=
  if digits.length % 2 = 1 then .error .oddLength else decodePairs 0 digits

/-- An octet as the character of its number, between single quotes. Controls, the soft hyphen and the
no-break space are written by number, and three controls by letter. -/
def quoteOctet (b : UInt8) : String :=
  let n := b.toNat
  let body :=
    if n = 0 then "\\0"
    else if n = 9 then "\\t"
    else if n = 10 then "\\n"
    else if n = 13 then "\\r"
    else if n = 39 then "\\'"
    else if n = 92 then "\\\\"
    else if n < 32 ∨ (127 ≤ n ∧ n ≤ 160) ∨ n = 173 then
      "\\u\x7b" ++ String.ofList ((if n < 16 then [] else [digit (n / 16)]) ++ [digit (n % 16)]) ++ "\x7d"
    else String.singleton (Char.ofNat n)
  "'" ++ body ++ "'"

def Malformed.describe : Malformed → String
  | oddLength => "Odd number of digits"
  | badDigit b position => "Invalid character " ++ quoteOctet b ++ " at position " ++ toString position

@[simp] theorem length_encodeChars (bs : Bytes) : (encodeChars bs).length = 2 * bs.length := by
  induction bs with
  | nil => rfl
  | cons b rest ih => simp [encodeChars, ih]; omega

/-- A digit of a value below sixteen is one ASCII byte that reads back as that value. -/
theorem octetValue?_digit : ∀ n < 16, octetValue? (digit n).val.toUInt8 = some n := by decide

end ProximityCert.Hex
