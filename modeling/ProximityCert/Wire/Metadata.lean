import ProximityCert.Wire.Message

/-! Device metadata, which certificates carry encrypted. -/

namespace ProximityCert

structure Metadata where
  deviceName : Option String := none
  fullName : Option String := none
  iconUrl : Option String := none
  bluetoothMac : Option Bytes := none
  accountName : Option String := none
  vendorId : Option Int32 := none
  deriving DecidableEq

instance : Message Metadata where
  empty := {}
  fields m := Field.optionalText 1 m.deviceName ++ Field.optionalText 2 m.fullName ++ Field.optionalText 3 m.iconUrl ++
    Field.optionalOctets 4 m.bluetoothMac ++ Field.optionalText 6 m.accountName ++ Field.optionalInt32 7 m.vendorId
  merge depth m
    | ⟨1, p⟩ => p.text?.map fun s => { m with deviceName := some s }
    | ⟨2, p⟩ => p.text?.map fun s => { m with fullName := some s }
    | ⟨3, p⟩ => p.text?.map fun s => { m with iconUrl := some s }
    | ⟨4, p⟩ => p.octets?.map fun b => { m with bluetoothMac := some b }
    | ⟨6, p⟩ => p.text?.map fun s => { m with accountName := some s }
    | ⟨7, p⟩ => p.int32?.map fun n => { m with vendorId := some n }
    | _ => Field.skip depth m

end ProximityCert
