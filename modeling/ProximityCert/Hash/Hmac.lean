import ProximityCert.Hash.Sha256

/-! HMAC with SHA-256, and the key derivation of HKDF built on it. -/

namespace ProximityCert

namespace Hmac

/-- A key longer than a block is hashed first; the result is filled with zeros to a block. -/
def blockKey (key : Bytes) : Bytes :=
  let short := if key.length > 64 then Sha256.digest key else key
  short ++ List.replicate (64 - short.length) 0

def tag (key message : Bytes) : Bytes :=
  let k := blockKey key
  Sha256.digest (k.map (· ^^^ 0x5c) ++ Sha256.digest (k.map (· ^^^ 0x36) ++ message))

@[simp] theorem length_tag (key message : Bytes) : (tag key message).length = 32 := by simp [tag]

end Hmac

namespace Hkdf

/-- The most bytes one key can be expanded to. -/
def maxLength : Nat := 255 * 32

def extract (salt keyMaterial : Bytes) : Bytes := Hmac.tag salt keyMaterial

/-- `count` further blocks, each the tag of the one before it and its own number. -/
def blocks (key : Bytes) : (count : Nat) → (previous : Bytes) → (number : Nat) → Bytes
  | 0, _, _ => []
  | count + 1, previous, number =>
    let block := Hmac.tag key (previous ++ [UInt8.ofNat number])
    block ++ blocks key count block (number + 1)

/-- Expansion without context information; `none` past the longest output. -/
def expand (key : Bytes) (length : Nat) : Option Bytes :=
  if length > maxLength then none else some ((blocks key ((length + 31) / 32) [] 1).take length)

@[simp] theorem length_blocks (key : Bytes) (count : Nat) (previous : Bytes) (number : Nat) :
    (blocks key count previous number).length = 32 * count := by
  induction count generalizing previous number with
  | zero => rfl
  | succ count ih => simp [blocks, ih]; omega

/-- An expansion has the length asked for. -/
theorem length_of_expand {key out : Bytes} {length : Nat} (h : expand key length = some out) :
    out.length = length := by
  unfold expand at h
  split at h
  · simp at h
  · cases h; simp; omega

end Hkdf
end ProximityCert
