import ProximityCert.Wire.Varint

/-!
The fields of a binary message. Each field has a number and a payload in one of the wire forms;
groups are passed over without keeping their content. Nesting is bounded: `depth` counts the levels
that may still be entered.
-/

namespace ProximityCert

inductive Payload | varint (value : UInt64) | fixed64 (octets : Bytes) | delimited (body : Bytes) | group | fixed32 (octets : Bytes)
  deriving DecidableEq

structure Field where
  number : Nat
  payload : Payload
  deriving DecidableEq

namespace Field

/-- The levels that a whole message may nest. -/
def maxDepth : Nat := 100

def key (number form : Nat) : Bytes := Varint.bytes (number * 8 + form)

/-- A body behind its length. -/
def framed (body : Bytes) : Bytes := Varint.bytes body.length ++ body

/-- The wire form of a field; a group is written empty. -/
def bytes (f : Field) : Bytes :=
  match f.payload with
  | .varint value => key f.number 0 ++ Varint.bytes value.toNat
  | .fixed64 octets => key f.number 1 ++ octets
  | .delimited body => key f.number 2 ++ framed body
  | .group => key f.number 3 ++ key f.number 4
  | .fixed32 octets => key f.number 5 ++ octets

/-- Cuts `n` bytes off, if there are as many. -/
def cut (n : Nat) (bs : Bytes) : Option (Bytes × Bytes) :=
  let head := bs.take n
  if head.length = n then some (head, bs.drop n) else none

/-- Reads a body behind its length. -/
def readFramed (bs : Bytes) : Option (Bytes × Bytes) := (Varint.read bs).bind fun (n, rest) => cut n rest

/-- Reads a field number, which is not zero, and a wire form. -/
def readKey (bs : Bytes) : Option (Nat × Nat × Bytes) :=
  (Varint.read bs).bind fun (key, rest) =>
    if 8 ≤ key ∧ key < UInt32.size then some (key / 8, key % 8, rest) else none

/-- Reads the payload of a field that is no group. -/
def readPayload (form : Nat) (bs : Bytes) : Option (Payload × Bytes) :=
  match form with
  | 0 => (Varint.read bs).map fun (n, rest) => (.varint (UInt64.ofNat n), rest)
  | 1 => (cut 8 bs).map fun (octets, rest) => (.fixed64 octets, rest)
  | 2 => (readFramed bs).map fun (body, rest) => (.delimited body, rest)
  | 5 => (cut 4 bs).map fun (octets, rest) => (.fixed32 octets, rest)
  | _ => none

/-- Passes over the rest of the open groups, innermost first. Every end must match the innermost
open group, and a field inside needs a level for each of them. The count bounds the fields read. -/
def skipGroups (depth : Nat) : (fuel : Nat) → (opened : List Nat) → Bytes → Option Bytes
  | _, [], bs => some bs
  | 0, _ :: _, _ => none
  | fuel + 1, innermost :: outer, bs =>
    match readKey bs with
    | none => none
    | some (number, form, rest) =>
      if form = 4 then if number = innermost then skipGroups depth fuel outer rest else none
      else if depth ≤ outer.length + 1 then none
      else if form = 3 then skipGroups depth fuel (number :: innermost :: outer) rest
      else
        match readPayload form rest with
        | none => none
        | some (_, rest) => skipGroups depth fuel (innermost :: outer) rest

/-- Reads the first field and gives the bytes behind it. The count bounds the fields inside a group. -/
def read (depth fuel : Nat) (bs : Bytes) : Option (Field × Bytes) :=
  match readKey bs with
  | none => none
  | some (number, form, rest) =>
    if form = 3 then
      if depth = 0 then none else (skipGroups depth fuel [number] rest).map fun rest => (⟨number, .group⟩, rest)
    else (readPayload form rest).map fun (payload, rest) => (⟨number, payload⟩, rest)

/-- Reads fields until the bytes end; the count bounds their number, also inside groups, as each takes
at least one byte. -/
def readUpTo (depth : Nat) : (fuel : Nat) → Bytes → Option (List Field)
  | _, [] => some []
  | 0, _ :: _ => none
  | fuel + 1, b :: bs =>
    match read depth fuel (b :: bs) with
    | none => none
    | some (f, rest) => (readUpTo depth fuel rest).map (f :: ·)

/-- All fields of a message body. -/
def readAll (depth : Nat) (bs : Bytes) : Option (List Field) := readUpTo depth bs.length bs

end Field
end ProximityCert
