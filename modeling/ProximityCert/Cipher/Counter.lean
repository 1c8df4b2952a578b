import ProximityCert.Cipher.Aes256

/-!
Counter modes over AES-256: the plain one with a 128-bit counter, and the authenticated one (GCM)
with a 96-bit nonce and no associated data. Enciphering with a keystream is its own inverse.
-/

namespace ProximityCert

namespace Keystream

/-- The output blocks numbered `0` to `count - 1`, joined. -/
def blocks (block : Nat → Bytes) (count : Nat) : Bytes := (List.range count).flatMap block

/-- Combines the data with as many keystream blocks of sixteen bytes as cover it. -/
def apply (block : Nat → Bytes) (data : Bytes) : Bytes :=
  Bytes.xor data (blocks block ((data.length + 15) / 16))

end Keystream

namespace CounterMode

def keyLength : Nat := 32
def ivLength : Nat := 16

/-- AES-256 in counter mode; the whole initial block counts, big-endian and modulo 2^128. -/
def apply (key iv data : Bytes) : Bytes :=
  let cipher := Aes256.cipher key
  Keystream.apply (fun i => cipher (Bytes.ofNat 16 (Bytes.toNat iv + i))) data

end CounterMode

namespace Gcm

def keyLength : Nat := 32
def nonceLength : Nat := 12
def tagLength : Nat := 16

/-- The most bytes that one message may have. -/
def maxLength : Nat := Nat.pow 2 36

/-- The reduction polynomial of the authentication field, bits in reflected order. -/
def reduction : Nat := 0xe1000000000000000000000000000000

/-- Product in GF(2^128), bits in reflected order: `bits` more bits of `x` are to be read, from the
highest, and `y` has been shifted once for each bit already read. -/
def multiplyBits (x : Nat) : (bits : Nat) → (y sum : Nat) → Nat
  | 0, _, sum => sum
  | bits + 1, y, sum =>
    multiplyBits x bits (if y % 2 = 1 then (y >>> 1) ^^^ reduction else y >>> 1)
      (if x.testBit bits then sum ^^^ y else sum)

def multiply (x y : Nat) : Nat := multiplyBits x 128 y 0

/-- The number of a block that may be shorter than sixteen bytes: zeros follow it. -/
def blockNumber (block : Bytes) : Nat := Bytes.toNat (block ++ List.replicate (16 - block.length) 0)

/-- The authentication hash of a ciphertext: its blocks, then its length in bits. -/
def hash (h : Nat) (ciphertext : Bytes) : Nat :=
  let folded := (Bytes.chunks 16 ciphertext).foldl (fun acc block => multiply (acc ^^^ blockNumber block) h) 0
  multiply (folded ^^^ ((ciphertext.length * 8) % UInt64.size)) h

/-- The counter block of a nonce; the count is taken modulo 2^32. -/
def counterBlock (nonce : Bytes) (count : Nat) : Bytes := nonce ++ Bytes.ofNat 4 count

/-- Combines data with the keystream, which starts at count two. -/
def applyStream (key nonce data : Bytes) : Bytes :=
  let cipher := Aes256.cipher key
  Keystream.apply (fun i => cipher (counterBlock nonce (i + 2))) data

def tag (key nonce ciphertext : Bytes) : Bytes :=
  let cipher := Aes256.cipher key
  let h := Bytes.toNat (cipher (List.replicate 16 0))
  Bytes.xor (Bytes.ofNat 16 (hash h ciphertext)) (cipher (counterBlock nonce 1))

/-- The ciphertext followed by its tag; `none` for a message that is too long. -/
def encrypt (key nonce plaintext : Bytes) : Option Bytes :=
  if plaintext.length > maxLength then none
  else
    let ciphertext := applyStream key nonce plaintext
    some (ciphertext ++ tag key nonce ciphertext)

/-- `none` unless the last sixteen bytes are the tag of the rest. -/
def decrypt (key nonce message : Bytes) : Option Bytes :=
  if message.length < tagLength ∨ message.length > maxLength + tagLength then none
  else
    let ciphertext := message.take (message.length - tagLength)
    if tag key nonce ciphertext = message.drop (message.length - tagLength) then
      some (applyStream key nonce ciphertext)
    else none

end Gcm
end ProximityCert
