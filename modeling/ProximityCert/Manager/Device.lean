import ProximityCert.Wire.Metadata

/-! The local device and its account, which the metadata of certificates tells contacts about. -/

namespace ProximityCert

structure Account where
  email : String
  deriving DecidableEq

structure Device where
  /-- Identifies the device to the service. -/
  id : String
  name : String
  fullName : Option String := none
  iconUrl : Option String := none
  vendorId : Int32 := 0
  /-- The address of the adapter, if there is one. -/
  bluetoothMac : Option Bytes := some [0x11, 0x22, 0x33, 0x44, 0x55, 0x66]
  deriving DecidableEq

namespace Device

def macLength : Nat := 6

/-- The metadata for new certificates. There is none without a name and an address of the right
length; the profile is included only with an account. -/
def metadata? (d : Device) (account : Option Account) : Option Metadata :=
  match d.bluetoothMac with
  | none => none
  | some mac =>
    if d.name.isEmpty ∨ mac.length ≠ macLength then none
    else some
      { deviceName := some d.name
        fullName := account.bind fun _ => d.fullName
        iconUrl := account.bind fun _ => d.iconUrl
        bluetoothMac := some mac
        accountName := account.map Account.email
        vendorId := some d.vendorId }

end Device
end ProximityCert
