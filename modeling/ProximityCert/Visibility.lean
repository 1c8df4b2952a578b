/-!
Visibility of the device, and which certificates serve a visibility.
-/

namespace ProximityCert

/-- Who may discover and authenticate the device. -/
inductive Visibility
  | unspecified | everyone | allContacts | selectedContacts | hidden | selfShare
  deriving DecidableEq

namespace Visibility

def all : List Visibility := [.unspecified, .everyone, .allContacts, .selectedContacts, .hidden, .selfShare]

def code : Visibility → Int32
  | unspecified => 0 | everyone => 1 | allContacts => 2 | selectedContacts => 3 | hidden => 4 | selfShare => 5

def ofCode? (n : Int32) : Option Visibility := all.find? fun x => x.code = n

def name : Visibility → String
  | unspecified => "Unspecified" | everyone => "Everyone" | allContacts => "AllContacts" | selectedContacts => "SelectedContacts"
  | hidden => "Hidden" | selfShare => "SelfShare"

theorem ofCode?_code (x : Visibility) : ofCode? x.code = some x := by cases x <;> rfl

end Visibility

namespace Visibility

/-- The visibilities that certificates are made for. -/
def generated : List Visibility := [.allContacts, .selectedContacts, .selfShare]

/-- The visibility whose certificates serve this one; a device that is hidden uses none. -/
def certificate? : Visibility → Option Visibility
  | everyone => some allContacts
  | hidden => none | unspecified => none
  | v => some v

end Visibility
end ProximityCert
