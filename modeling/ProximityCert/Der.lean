import ProximityCert.Bytes

/-!
Distinguished encoding: elements of a tag octet, a length in its shortest form, and a content.
Reading is strict, so an element has one spelling.
-/

namespace ProximityCert.Der

structure Element where
  tag : UInt8
  content : Bytes
  deriving DecidableEq

namespace Tag

def integer : UInt8 := 0x02
def bitString : UInt8 := 0x03
def octetString : UInt8 := 0x04
def objectIdentifier : UInt8 := 0x06
def sequence : UInt8 := 0x30

/-- The constructed tag of a context with a number. -/
def context (number : Nat) : UInt8 := UInt8.ofNat (0xa0 + number)

/-- The tag numbers of this encoding stand in the low five bits, and thirty-one is no number. -/
def number (tag : UInt8) : Nat := tag.toNat % 32

/-- Whether the two highest bits mark the tag as one of a context. -/
def isContext (tag : UInt8) : Bool := tag.toNat / 64 = 2

/-- Universal tags that are known, and every tag of the other three classes. -/
def isKnown (tag : UInt8) : Bool :=
  if tag.toNat / 64 = 0 then
    tag.toNat ∈ [0x01, 0x02, 0x03, 0x04, 0x05, 0x06, 0x09, 0x0a, 0x0c, 0x12, 0x13, 0x14, 0x15, 0x16, 0x17, 0x18,
      0x1a, 0x1e, 0x30, 0x31]
  else number tag ≠ 31

end Tag

/-- The fewest octets that hold a number; none for zero. -/
def minimalOctets (n : Nat) : Nat :=
  if n = 0 then 0 else if n < 0x100 then 1 else if n < 0x10000 then 2 else if n < 0x1000000 then 3 else 4

def lengthBytes (n : Nat) : Bytes :=
  if n < 0x80 then [UInt8.ofNat n]
  else UInt8.ofNat (0x80 + minimalOctets n) :: Bytes.ofNat (minimalOctets n) n

def Element.bytes (e : Element) : Bytes := e.tag :: (lengthBytes e.content.length ++ e.content)

/-- The longest content that a length may announce. -/
def maxLength : Nat := 0xfffffff

/-- Reads a length of one octet, or of one to four octets behind a count, in its shortest form. -/
def readLength : Bytes → Option (Nat × Bytes)
  | [] => none
  | first :: rest =>
    if first < 0x80 then some (first.toNat, rest)
    else
      let count := first.toNat - 0x80
      let n := Bytes.toNat (rest.take count)
      if count ≤ 4 ∧ count ≤ rest.length ∧ 0x80 ≤ n ∧ n ≤ maxLength ∧ minimalOctets n = count then
        some (n, rest.drop count)
      else none

/-- Reads the first element and gives the bytes behind it. -/
def readElement : Bytes → Option (Element × Bytes)
  | [] => none
  | tag :: rest =>
    if Tag.isKnown tag then
      match readLength rest with
      | some (n, rest) => if n ≤ rest.length then some (⟨tag, rest.take n⟩, rest.drop n) else none
      | none => none
    else none

/-- Reads the content of a first element that has the given tag. -/
def readTagged (tag : UInt8) (bs : Bytes) : Option (Bytes × Bytes) :=
  (readElement bs).bind fun (e, rest) => if e.tag = tag then some (e.content, rest) else none

/-- The content of an element that makes up all of the bytes. -/
def only (tag : UInt8) (bs : Bytes) : Option Bytes :=
  (readTagged tag bs).bind fun (content, rest) => if rest.isEmpty then some content else none

/-- A nonnegative integer: its shortest octets, with a zero in front if the highest bit is set. -/
def naturalContent (octets : Bytes) : Bytes :=
  match octets.dropWhile (· = 0) with
  | [] => [0]
  | b :: rest => if b < 0x80 then b :: rest else 0 :: b :: rest

/-- The octets of a nonnegative integer without a leading zero; other spellings are refused. -/
def naturalOctets (content : Bytes) : Option Bytes :=
  match content with
  | [] => none
  | [0] => some [0]
  | 0 :: b :: rest => if b < 0x80 then none else some (b :: rest)
  | b :: rest => if b < 0x80 then some (b :: rest) else none

/-- The bytes of a bit string that fills whole octets. -/
def bitStringBytes : Bytes → Option Bytes
  | 0 :: bytes => some bytes
  | _ => none

/-- Passes over leading elements of lower context numbers and reads the one with this number, in
the form that `tag` gives it. Absence is no error. The count bounds the elements passed over. -/
def readContext (number : Nat) (tag : UInt8) : (fuel : Nat) → Bytes → Option (Option Bytes × Bytes)
  | 0, _ => none
  | fuel + 1, bs =>
    match bs with
    | [] => some (none, [])
    | first :: _ =>
      if !Tag.isKnown first then none
      else if !Tag.isContext first || Tag.number first > number then some (none, bs)
      else
        match readElement bs with
        | none => none
        | some (e, rest) =>
          if Tag.number first = number then if e.tag = tag then some (some e.content, rest) else none
          else readContext number tag fuel rest

/-- Whether the arcs behind the first octet are complete, of at most five octets, and below 2^32. -/
def arcsComplete : (octets : Nat) → Bytes → Bool
  | octets, [] => octets = 0
  | octets, b :: rest =>
    if octets ≥ 4 ∧ b ≥ 0x10 then false
    else if b < 0x80 then arcsComplete 0 rest else arcsComplete (octets + 1) rest

/-- Whether the content is an object identifier: three to thirty-nine octets and a first arc up to 2. -/
def isObjectIdentifier (content : Bytes) : Bool :=
  match content with
  | first :: rest => 3 ≤ content.length && content.length ≤ 39 && first < 120 && arcsComplete 0 rest
  | [] => false

end ProximityCert.Der
