import ProximityCert.SigningKey

/-!
Keys in their encoded form. An element reads back in front of any further bytes, and a private key
from its elements: the scalar is stored with all its octets, and the public point beside it is the one
that belongs to the scalar.
-/

namespace ProximityCert

namespace Der

theorem minimalOctets_le (n : Nat) : minimalOctets n ≤ 4 := by
  unfold minimalOctets
  split
  · decide
  · split
    · decide
    · split
      · decide
      · split <;> decide

theorem lt_pow_minimalOctets {n : Nat} (small : n ≤ maxLength) :
    n < Nat.pow 256 (minimalOctets n) := by
  have bound : maxLength = 0xfffffff := rfl
  unfold minimalOctets
  split
  · next zero => simp [zero]
  · split
    · next h => exact h
    · split
      · next h => exact h
      · split
        · next h => exact h
        · exact Nat.lt_of_le_of_lt small (by decide)

theorem readLength_lengthBytes {n : Nat} (small : n ≤ maxLength) (rest : Bytes) :
    readLength (lengthBytes n ++ rest) = some (n, rest) := by
  have bound : maxLength = 0xfffffff := rfl
  have octets := minimalOctets_le n
  unfold lengthBytes
  by_cases short : n < 0x80
  · have marked : UInt8.ofNat n < 0x80 := by
      simp [UInt8.lt_iff_toNat_lt]
      omega
    rw [if_pos short]
    simp only [List.cons_append, List.nil_append, readLength, if_pos marked]
    simp
    omega
  · have first : (UInt8.ofNat (0x80 + minimalOctets n)).toNat = 0x80 + minimalOctets n := by
      simp
      omega
    have marked : ¬ UInt8.ofNat (0x80 + minimalOctets n) < 0x80 := by
      rw [UInt8.lt_iff_toNat_lt, first]
      simp
    have count : 0x80 + minimalOctets n - 0x80 = minimalOctets n := by omega
    have head : (Bytes.ofNat (minimalOctets n) n ++ rest).take (minimalOctets n) =
      Bytes.ofNat (minimalOctets n) n :=
      List.take_left' (Bytes.length_ofNat _ _)
    have tail : (Bytes.ofNat (minimalOctets n) n ++ rest).drop (minimalOctets n) = rest :=
      List.drop_left' (Bytes.length_ofNat _ _)
    rw [if_neg short]
    simp only [List.cons_append, readLength, if_neg marked, first, count, head, tail,
      Bytes.toNat_ofNat (lt_pow_minimalOctets small)]
    rw [if_pos]
    refine ⟨octets, ?_, by omega, small, trivial⟩
    simp

theorem readElement_bytes {e : Element} (known : Tag.isKnown e.tag = true)
    (small : e.content.length ≤ maxLength)
    (rest : Bytes) : readElement (e.bytes ++ rest) = some (e, rest) := by
  simp only [Element.bytes, List.cons_append, List.append_assoc, readElement, known, if_true]
  rw [readLength_lengthBytes small]
  simp

theorem readTagged_bytes (tag : UInt8) (content : Bytes) (known : Tag.isKnown tag = true)
    (small : content.length ≤ maxLength) (rest : Bytes) :
    readTagged tag ((Element.mk tag content).bytes ++ rest) = some (content, rest) := by
  have read := readElement_bytes (e := ⟨tag, content⟩) known small rest
  simp [readTagged, read]

theorem only_bytes (tag : UInt8) (content : Bytes) (known : Tag.isKnown tag = true)
    (small : content.length ≤ maxLength) :
    only tag (Element.mk tag content).bytes = some content := by
  have read := readTagged_bytes tag content known small []
  rw [List.append_nil] at read
  simp [only, read]

/-- The element of the context number that is asked for. -/
theorem readContext_bytes (number : Nat) (tag : UInt8) (content : Bytes)
    (known : Tag.isKnown tag = true)
    (context : Tag.isContext tag = true) (same : Tag.number tag = number)
    (small : content.length ≤ maxLength) (rest : Bytes) (fuel : Nat) :
    readContext number tag (fuel + 1) ((Element.mk tag content).bytes ++ rest) =
      some (some content, rest) := by
  have read := readElement_bytes (e := ⟨tag, content⟩) known small rest
  have shape : (Element.mk tag content).bytes ++ rest =
    tag :: (lengthBytes content.length ++ content ++ rest) := rfl
  rw [shape] at read ⊢
  simp only [readContext, known, context, same, Bool.not_true, Bool.false_or, read]
  simp

/-- An element of a higher context number stays where it is. -/
theorem readContext_higher (number : Nat) (tag tag' : UInt8) (content : Bytes)
    (known : Tag.isKnown tag = true) (higher : number < Tag.number tag) (fuel : Nat) :
    readContext number tag' (fuel + 1) (Element.mk tag content).bytes =
      some (none, (Element.mk tag content).bytes) := by
  have shape : (Element.mk tag content).bytes = tag :: (lengthBytes content.length ++ content) :=
    rfl
  rw [shape]
  simp [readContext, known, higher]

theorem length_bytes_le (e : Element) : e.bytes.length ≤ e.content.length + 6 := by
  have := minimalOctets_le e.content.length
  have : (lengthBytes e.content.length).length ≤ 5 := by
    unfold lengthBytes
    split
    · simp
    · simp
      omega
  simp only [Element.bytes, List.length_cons, List.length_append]
  omega

theorem length_naturalContent_le (octets : Bytes) :
    (naturalContent octets).length ≤ octets.length + 1 := by
  have fewer := (List.dropWhile_sublist (l := octets) (· = 0)).length_le
  unfold naturalContent
  split
  · simp
  · next b rest left =>
      rw [left, List.length_cons] at fewer
      split
      · simp only [List.length_cons]
        omega
      · simp only [List.length_cons]
        omega

end Der

namespace SigningKey

open Der P256

variable (k : SigningKey)

theorem ofOctets?_scalar : ofOctets? (Bytes.ofNat 32 k.scalar) = some k := by
  have room : k.scalar < Nat.pow 256 32 := Nat.lt_trans k.below (by decide)
  have width : minOctets ≤ 32 := by decide
  simp only [ofOctets?, Bytes.length_ofNat, Bytes.toNat_ofNat room, ofNat?,
    dif_pos (And.intro k.positive k.below)]
  simp [width]

theorem accepts_own : k.accepts (some k.publicPoint.uncompressed) = true := by simp [accepts]

/-- The inner structure of a private key: version one, the scalar and the public point. -/
def innerContent : Bytes :=
  (Element.mk Tag.integer [1]).bytes ++
    (Element.mk Tag.octetString (Bytes.ofNat 32 k.scalar)).bytes ++
    (Element.mk (Tag.context 1) (Element.mk Tag.bitString
      (0 :: k.publicPoint.uncompressed)).bytes).bytes

theorem length_innerContent_le : k.innerContent.length ≤ 128 := by
  have version := length_bytes_le (Element.mk Tag.integer [1])
  have scalar := length_bytes_le (Element.mk Tag.octetString (Bytes.ofNat 32 k.scalar))
  have bits := length_bytes_le (Element.mk Tag.bitString (0 :: k.publicPoint.uncompressed))
  have point := length_bytes_le
    (Element.mk (Tag.context 1) (Element.mk Tag.bitString (0 :: k.publicPoint.uncompressed)).bytes)
  simp only [List.length_cons, List.length_nil, Bytes.length_ofNat,
    Affine.length_uncompressed] at version scalar bits point
  simp only [innerContent, List.length_append]
  omega

theorem ofInnerDer?_bytes : ofInnerDer? (Element.mk Tag.sequence k.innerContent).bytes =
      some k := by
  have limit : maxLength = 0xfffffff := rfl
  have whole := k.length_innerContent_le
  have bits : (0 :: k.publicPoint.uncompressed).length = 66 := by simp
  have point := length_bytes_le (Element.mk Tag.bitString (0 :: k.publicPoint.uncompressed))
  rw [show (Element.mk Tag.bitString (0 :: k.publicPoint.uncompressed)).content.length =
    66 from bits] at point
  have body := only_bytes Tag.sequence k.innerContent (by decide) (by omega)
  have version := readTagged_bytes Tag.integer [1] (by decide) (by decide)
    ((Element.mk Tag.octetString (Bytes.ofNat 32 k.scalar)).bytes ++
      (Element.mk (Tag.context 1) (Element.mk Tag.bitString
        (0 :: k.publicPoint.uncompressed)).bytes).bytes)
  have octets := readTagged_bytes Tag.octetString (Bytes.ofNat 32 k.scalar) (by decide)
    (by rw [Bytes.length_ofNat]; decide)
    (Element.mk (Tag.context 1) (Element.mk Tag.bitString
      (0 :: k.publicPoint.uncompressed)).bytes).bytes
  have parameters := readContext_higher 0 (Tag.context 1) (Tag.context 0)
    (Element.mk Tag.bitString (0 :: k.publicPoint.uncompressed)).bytes (by decide) (by decide)
  have published := readContext_bytes 1 (Tag.context 1)
    (Element.mk Tag.bitString (0 :: k.publicPoint.uncompressed)).bytes (by decide) (by decide)
      (by decide)
    (by omega) []
  have string := only_bytes Tag.bitString (0 :: k.publicPoint.uncompressed) (by decide) (by omega)
  rw [List.append_nil] at published
  unfold ofInnerDer?
  simp only [body, Option.bind_eq_bind, Option.bind_some]
  rw [innerContent, List.append_assoc, version]
  simp only [Option.bind_some, ne_eq, not_true_eq_false, if_false, octets, parameters, published,
    string, bitStringBytes, Option.map_some, List.isEmpty_nil, Bool.not_true, Bool.false_eq_true,
      ofOctets?_scalar, accepts_own,
    if_true]

theorem ofPrivateDer?_privateDer : ofPrivateDer? k.privateDer = some k := by
  have limit : maxLength = 0xfffffff := rfl
  have inside := k.length_innerContent_le
  have sequence := length_bytes_le (Element.mk Tag.sequence k.innerContent)
  have wrapped := length_bytes_le (Element.mk Tag.octetString
    (Element.mk Tag.sequence k.innerContent).bytes)
  have short : (Element.mk Tag.integer [0]).bytes.length +
    (Element.mk Tag.sequence algorithm).bytes.length ≤ 100 := by
    decide
  simp only at sequence wrapped
  have shape : k.privateDer = (Element.mk Tag.sequence ((Element.mk Tag.integer [0]).bytes ++
      ((Element.mk Tag.sequence algorithm).bytes ++
        (Element.mk Tag.octetString (Element.mk Tag.sequence
          k.innerContent).bytes).bytes))).bytes := by
    rw [← List.append_assoc]
    rfl
  have body := only_bytes Tag.sequence ((Element.mk Tag.integer [0]).bytes ++
      ((Element.mk Tag.sequence algorithm).bytes ++
        (Element.mk Tag.octetString (Element.mk Tag.sequence k.innerContent).bytes).bytes))
          (by decide)
    (by simp only [List.length_append]; omega)
  have version := readTagged_bytes Tag.integer [0] (by decide) (by decide)
    ((Element.mk Tag.sequence algorithm).bytes ++
        (Element.mk Tag.octetString (Element.mk Tag.sequence k.innerContent).bytes).bytes)
  have identifiers := readTagged_bytes Tag.sequence algorithm (by decide) (by decide)
    (Element.mk Tag.octetString (Element.mk Tag.sequence k.innerContent).bytes).bytes
  have inner := readTagged_bytes Tag.octetString (Element.mk Tag.sequence k.innerContent).bytes
    (by decide) (by omega) []
  have outer : readContext 1 0x81 (([] : Bytes).length + 1) [] = some (none, []) := rfl
  rw [List.append_nil] at inner
  unfold ofPrivateDer?
  simp only [shape, body, Option.bind_eq_bind, Option.bind_some, version, identifiers, inner, outer,
    areExtensions, ofInnerDer?_bytes]
  simp

theorem length_sign_le {payload signature : Bytes} (signed : k.sign payload = some signature) :
    0 < signature.length ∧ signature.length ≤ 84 := by
  obtain ⟨g, _, rfl⟩ := Option.map_eq_some_iff.1 signed
  have part (n : Nat) : (Element.mk Tag.integer (naturalContent (Bytes.ofNat 32 n))).bytes.length ≤
    39 := by
    have element := length_bytes_le (Element.mk Tag.integer (naturalContent (Bytes.ofNat 32 n)))
    have content := length_naturalContent_le (Bytes.ofNat 32 n)
    rw [Bytes.length_ofNat] at content
    simp only at element
    omega
  have r := part g.r
  have s := part g.s
  have both := length_bytes_le (Element.mk Tag.sequence
    ((Element.mk Tag.integer (naturalContent (Bytes.ofNat 32 g.r))).bytes ++
      (Element.mk Tag.integer (naturalContent (Bytes.ofNat 32 g.s))).bytes))
  simp only [List.length_append] at both
  exact ⟨Nat.succ_pos _, by unfold Ecdsa.Signature.der; omega⟩

end SigningKey
end ProximityCert
