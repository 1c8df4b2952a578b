import ProximityCert.Wire.Timestamp

/-! The part of a certificate that contacts may download. -/

namespace ProximityCert

structure PublicCertificate where
  secretId : Bytes := []
  secretKey : Bytes := []
  publicKey : Bytes := []
  startTime : Option Timestamp := none
  endTime : Option Timestamp := none
  forSelectedContacts : Bool := false
  metadataKey : Bytes := []
  encryptedMetadata : Bytes := []
  metadataKeyTag : Bytes := []
  forSelfShare : Bool := false
  deriving DecidableEq

instance : Message PublicCertificate where
  empty := {}
  fields m := Field.octets 1 m.secretId ++ Field.octets 2 m.secretKey ++ Field.octets 3 m.publicKey ++
    Field.optionalMessage 4 m.startTime ++ Field.optionalMessage 5 m.endTime ++ Field.bool 6 m.forSelectedContacts ++
    Field.octets 7 m.metadataKey ++ Field.octets 8 m.encryptedMetadata ++ Field.octets 9 m.metadataKeyTag ++
    Field.bool 10 m.forSelfShare
  merge depth m
    | ⟨1, p⟩ => p.octets?.map fun b => { m with secretId := b }
    | ⟨2, p⟩ => p.octets?.map fun b => { m with secretKey := b }
    | ⟨3, p⟩ => p.octets?.map fun b => { m with publicKey := b }
    | ⟨4, p⟩ => (p.message? depth m.startTime).map fun t => { m with startTime := some t }
    | ⟨5, p⟩ => (p.message? depth m.endTime).map fun t => { m with endTime := some t }
    | ⟨6, p⟩ => p.bool?.map fun v => { m with forSelectedContacts := v }
    | ⟨7, p⟩ => p.octets?.map fun b => { m with metadataKey := b }
    | ⟨8, p⟩ => p.octets?.map fun b => { m with encryptedMetadata := b }
    | ⟨9, p⟩ => p.octets?.map fun b => { m with metadataKeyTag := b }
    | ⟨10, p⟩ => p.bool?.map fun v => { m with forSelfShare := v }
    | _ => Field.skip depth m

end ProximityCert
