import ProximityCert.Bytes

/-!
The AES block cipher with a 256-bit key, in the encrypting direction, which is the only one that
counter modes use. A block is four columns of four bytes.
-/

namespace ProximityCert.Aes256

structure Column where
  b0 : UInt8
  b1 : UInt8
  b2 : UInt8
  b3 : UInt8
  deriving DecidableEq

namespace Column

def xor (x y : Column) : Column := ⟨x.b0 ^^^ y.b0, x.b1 ^^^ y.b1, x.b2 ^^^ y.b2, x.b3 ^^^ y.b3⟩
def map (f : UInt8 → UInt8) (x : Column) : Column := ⟨f x.b0, f x.b1, f x.b2, f x.b3⟩
def rotate (x : Column) : Column := ⟨x.b1, x.b2, x.b3, x.b0⟩
def bytes (x : Column) : Bytes := [x.b0, x.b1, x.b2, x.b3]

/-- The first four bytes; missing ones are zero. -/
def ofBytes (bs : Bytes) : Column := ⟨bs.getD 0 0, bs.getD 1 0, bs.getD 2 0, bs.getD 3 0⟩

end Column

structure Block where
  c0 : Column
  c1 : Column
  c2 : Column
  c3 : Column
  deriving DecidableEq

namespace Block

def xor (x y : Block) : Block := ⟨x.c0.xor y.c0, x.c1.xor y.c1, x.c2.xor y.c2, x.c3.xor y.c3⟩
def map (f : Column → Column) (x : Block) : Block := ⟨f x.c0, f x.c1, f x.c2, f x.c3⟩
def bytes (x : Block) : Bytes := x.c0.bytes ++ x.c1.bytes ++ x.c2.bytes ++ x.c3.bytes

def ofBytes (bs : Bytes) : Block :=
  ⟨.ofBytes bs, .ofBytes (bs.drop 4), .ofBytes (bs.drop 8), .ofBytes (bs.drop 12)⟩

/-- Row `r` moves `r` places to the left. -/
def shiftRows (x : Block) : Block :=
  ⟨⟨x.c0.b0, x.c1.b1, x.c2.b2, x.c3.b3⟩, ⟨x.c1.b0, x.c2.b1, x.c3.b2, x.c0.b3⟩,
   ⟨x.c2.b0, x.c3.b1, x.c0.b2, x.c1.b3⟩, ⟨x.c3.b0, x.c0.b1, x.c1.b2, x.c2.b3⟩⟩

end Block

/-- The substitution: inversion in GF(2^8) followed by an affine map. -/
def substitutionTable : Array UInt8 := #[
  0x63, 0x7c, 0x77, 0x7b, 0xf2, 0x6b, 0x6f, 0xc5, 0x30, 0x01, 0x67, 0x2b, 0xfe, 0xd7, 0xab, 0x76,
  0xca, 0x82, 0xc9, 0x7d, 0xfa, 0x59, 0x47, 0xf0, 0xad, 0xd4, 0xa2, 0xaf, 0x9c, 0xa4, 0x72, 0xc0,
  0xb7, 0xfd, 0x93, 0x26, 0x36, 0x3f, 0xf7, 0xcc, 0x34, 0xa5, 0xe5, 0xf1, 0x71, 0xd8, 0x31, 0x15,
  0x04, 0xc7, 0x23, 0xc3, 0x18, 0x96, 0x05, 0x9a, 0x07, 0x12, 0x80, 0xe2, 0xeb, 0x27, 0xb2, 0x75,
  0x09, 0x83, 0x2c, 0x1a, 0x1b, 0x6e, 0x5a, 0xa0, 0x52, 0x3b, 0xd6, 0xb3, 0x29, 0xe3, 0x2f, 0x84,
  0x53, 0xd1, 0x00, 0xed, 0x20, 0xfc, 0xb1, 0x5b, 0x6a, 0xcb, 0xbe, 0x39, 0x4a, 0x4c, 0x58, 0xcf,
  0xd0, 0xef, 0xaa, 0xfb, 0x43, 0x4d, 0x33, 0x85, 0x45, 0xf9, 0x02, 0x7f, 0x50, 0x3c, 0x9f, 0xa8,
  0x51, 0xa3, 0x40, 0x8f, 0x92, 0x9d, 0x38, 0xf5, 0xbc, 0xb6, 0xda, 0x21, 0x10, 0xff, 0xf3, 0xd2,
  0xcd, 0x0c, 0x13, 0xec, 0x5f, 0x97, 0x44, 0x17, 0xc4, 0xa7, 0x7e, 0x3d, 0x64, 0x5d, 0x19, 0x73,
  0x60, 0x81, 0x4f, 0xdc, 0x22, 0x2a, 0x90, 0x88, 0x46, 0xee, 0xb8, 0x14, 0xde, 0x5e, 0x0b, 0xdb,
  0xe0, 0x32, 0x3a, 0x0a, 0x49, 0x06, 0x24, 0x5c, 0xc2, 0xd3, 0xac, 0x62, 0x91, 0x95, 0xe4, 0x79,
  0xe7, 0xc8, 0x37, 0x6d, 0x8d, 0xd5, 0x4e, 0xa9, 0x6c, 0x56, 0xf4, 0xea, 0x65, 0x7a, 0xae, 0x08,
  0xba, 0x78, 0x25, 0x2e, 0x1c, 0xa6, 0xb4, 0xc6, 0xe8, 0xdd, 0x74, 0x1f, 0x4b, 0xbd, 0x8b, 0x8a,
  0x70, 0x3e, 0xb5, 0x66, 0x48, 0x03, 0xf6, 0x0e, 0x61, 0x35, 0x57, 0xb9, 0x86, 0xc1, 0x1d, 0x9e,
  0xe1, 0xf8, 0x98, 0x11, 0x69, 0xd9, 0x8e, 0x94, 0x9b, 0x1e, 0x87, 0xe9, 0xce, 0x55, 0x28, 0xdf,
  0x8c, 0xa1, 0x89, 0x0d, 0xbf, 0xe6, 0x42, 0x68, 0x41, 0x99, 0x2d, 0x0f, 0xb0, 0x54, 0xbb, 0x16]

def substitute (b : UInt8) : UInt8 := substitutionTable.getD b.toNat 0

/-- Multiplication by the polynomial `x` in GF(2^8). -/
def double (b : UInt8) : UInt8 := if b < 128 then b <<< 1 else (b <<< 1) ^^^ 0x1b

def mixColumn (x : Column) : Column :=
  let all := x.b0 ^^^ x.b1 ^^^ x.b2 ^^^ x.b3
  ⟨x.b0 ^^^ all ^^^ double (x.b0 ^^^ x.b1), x.b1 ^^^ all ^^^ double (x.b1 ^^^ x.b2),
   x.b2 ^^^ all ^^^ double (x.b2 ^^^ x.b3), x.b3 ^^^ all ^^^ double (x.b3 ^^^ x.b0)⟩

/-- The four key columns after `previous`, whose last column enters through `mixed`. -/
def nextKey (previous : Block) (mixed : Column) : Block :=
  let c0 := previous.c0.xor mixed
  let c1 := previous.c1.xor c0
  let c2 := previous.c2.xor c1
  ⟨c0, c1, c2, previous.c3.xor c2⟩

/-- Round keys in pairs: one with the rotated and counted last column, one with it only substituted. -/
def expandKeys : (pairs : Nat) → (counter : UInt8) → Block → Block → List Block
  | 0, _, _, _ => []
  | pairs + 1, counter, even, odd =>
    let mixed := (odd.c3.rotate.map substitute).xor ⟨counter, 0, 0, 0⟩
    let nextEven := nextKey even mixed
    let nextOdd := nextKey odd (nextEven.c3.map substitute)
    nextEven :: nextOdd :: expandKeys pairs (double counter) nextEven nextOdd

/-- The round keys after the first; the last pair is one key longer than the cipher needs. -/
def roundKeys (key : Bytes) : List Block :=
  let k0 := Block.ofBytes key
  let k1 := Block.ofBytes (key.drop 16)
  k1 :: (expandKeys 7 1 k0 k1).take 13

def rounds : List Block → Block → Block
  | [], x => x
  | [last], x => ((x.map (·.map substitute)).shiftRows).xor last
  | k :: ks, x => rounds ks ((((x.map (·.map substitute)).shiftRows).map mixColumn).xor k)

/-- Enciphers one sixteen-byte block with a prepared key. -/
def encryptBlock (first : Block) (keys : List Block) (block : Bytes) : Bytes :=
  (rounds keys ((Block.ofBytes block).xor first)).bytes

/-- The permutation of blocks that a thirty-two byte key selects. -/
def cipher (key : Bytes) : Bytes → Bytes :=
  let keys := roundKeys key
  encryptBlock (Block.ofBytes key) keys

@[simp] theorem length_cipher (key block : Bytes) : (cipher key block).length = 16 := by
  simp [cipher, encryptBlock, Block.bytes, Column.bytes]

end ProximityCert.Aes256
