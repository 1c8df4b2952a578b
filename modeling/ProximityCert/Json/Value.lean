import ProximityCert.Json.Number

/-!
Structured values. Members of an object stand in the order of their names, each name once; whole
numbers reach from -2^63 to 2^64 - 1, and all others are binary fractions.
-/

namespace ProximityCert

inductive Json
  | null | bool (b : Bool) | integer (n : Int) | real (x : Json.Real) | str (s : String)
  | arr (items : List Json) | obj (members : List (String × Json))

namespace Json

instance : Inhabited Json := ⟨null⟩

/-- Puts a member into its place, over one of the same name. -/
def insertMember (name : String) (value : Json) : List (String × Json) → List (String × Json)
  | [] => [(name, value)]
  | (n, v) :: rest =>
    if name = n then (name, value) :: rest
    else if name < n then (name, value) :: (n, v) :: rest
    else (n, v) :: insertMember name value rest

/-- An object from members in any order; of equal names the last counts. -/
def ofMembers (members : List (String × Json)) : Json :=
  obj (members.foldl (fun acc (n, v) => insertMember n v acc) [])

def member? (name : String) : List (String × Json) → Option Json
  | [] => none
  | (n, v) :: rest => if name = n then some v else member? name rest

/-- A member of an object. -/
def get? (name : String) : Json → Option Json
  | obj members => member? name members
  | _ => none

def ofInt64 (n : Int64) : Json := integer n.toInt
def ofInt32 (n : Int32) : Json := integer n.toInt
def ofNat (n : Nat) : Json := integer n

/-- A whole number in a range. -/
def integerIn? (low high : Int) : Json → Option Int
  | integer n => if low ≤ n ∧ n ≤ high then some n else none
  | _ => none

def int64? (j : Json) : Option Int64 := (j.integerIn? (-9223372036854775808) 9223372036854775807).map Int64.ofInt
def int32? (j : Json) : Option Int32 := (j.integerIn? (-2147483648) 2147483647).map Int32.ofInt
def uint64? (j : Json) : Option UInt64 := (j.integerIn? 0 18446744073709551615).map fun n => UInt64.ofNat n.toNat
def uint32? (j : Json) : Option UInt32 := (j.integerIn? 0 4294967295).map fun n => UInt32.ofNat n.toNat

def str? : Json → Option String
  | str s => some s
  | _ => none

def bool? : Json → Option Bool
  | bool b => some b
  | _ => none

/-- Null is an absent value. -/
def optional? {α : Type} (read : Json → Option α) : Json → Option (Option α)
  | null => some none
  | j => (read j).map some

def array? : Json → Option (List Json)
  | arr items => some items
  | _ => none

/-- The values of the named fields in order: from the members of an object, other members ignored, or
from an array that lists the fields by position and nothing more. -/
def structFields? (names : List String) : Json → Option (List (Option Json))
  | obj members => some (names.map fun n => member? n members)
  | arr items => if items.length ≤ names.length then some ((List.range names.length).map fun i => items[i]?) else none
  | _ => none

/-- A field that must be there. -/
def required? {α : Type} (read : Json → Option α) (field : Option Json) : Option α := field.bind read

/-- A field with a default. -/
def defaulted? {α : Type} (default : α) (read : Json → Option α) : Option Json → Option α
  | none => some default
  | some j => read j

end Json
end ProximityCert
