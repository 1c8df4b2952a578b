import ProximityCert.Bytes
import ProximityCert.Json.Value
import ProximityCert.Text.Hex

/-!
Reading texts. A text is first read into a tree that keeps repeated members and spellings without a
value; a tree then gives a value, or the fields of a structure, whose other members need no value.
-/

namespace ProximityCert.Json

/-- The spelling of a number: digits before and behind the point, and the exponent of ten. -/
structure Numeral where
  negative : Bool
  whole : List Nat
  fraction : List Nat
  exponent : Int
  isWhole : Bool

/-- A read text. Strings with unpaired surrogates are spelled correctly but have no value. -/
inductive Tree
  | null | bool (b : Bool) | number (n : Numeral) | str (s : Option String)
  | arr (items : List Tree) | obj (members : List (Option String × Tree))

instance : Inhabited Tree := ⟨.null⟩

def isBlank (c : Char) : Bool := c = ' ' || c = '\n' || c = '\t' || c = '\r'

def skipBlanks (cs : List Char) : List Char := cs.dropWhile isBlank

/-- What a string is spelled of: characters, and sixteen-bit units behind escapes. -/
inductive Piece | char (c : Char) | unit (n : Nat)

def escaped? (c : Char) : Option Char :=
  if c = '"' ∨ c = '\\' ∨ c = '/' then some c
  else if c = 'b' then some (Char.ofNat 8)
  else if c = 'f' then some (Char.ofNat 12)
  else if c = 'n' then some '\n'
  else if c = 'r' then some '\r'
  else if c = 't' then some '\t'
  else none

/-- Reads the rest of a string behind its opening quote. -/
def readPieces : List Char → Option (List Piece × List Char)
  | '"' :: rest => some ([], rest)
  | '\\' :: 'u' :: a :: b :: c :: d :: rest =>
    match Hex.value? a, Hex.value? b, Hex.value? c, Hex.value? d with
    | some a, some b, some c, some d =>
      (readPieces rest).map fun (ps, rest) => (.unit (((a * 16 + b) * 16 + c) * 16 + d) :: ps, rest)
    | _, _, _, _ => none
  | '\\' :: c :: rest =>
    match escaped? c with
    | some c => (readPieces rest).map fun (ps, rest) => (.char c :: ps, rest)
    | none => none
  | c :: rest => if c.toNat < 32 ∨ c = '\\' then none else (readPieces rest).map fun (ps, rest) => (.char c :: ps, rest)
  | [] => none

/-- Joins pairs of surrogates; one that stands alone has no value. -/
def joinPieces : List Piece → Option (List Char)
  | [] => some []
  | .char c :: rest => (joinPieces rest).map (c :: ·)
  | .unit high :: .unit low :: rest =>
    if 0xd800 ≤ high ∧ high < 0xdc00 then
      if 0xdc00 ≤ low ∧ low < 0xe000 then
        (joinPieces rest).map (Char.ofNat (0x10000 + (high - 0xd800) * 0x400 + (low - 0xdc00)) :: ·)
      else none
    else if 0xdc00 ≤ high ∧ high < 0xe000 then none
    else (joinPieces (.unit low :: rest)).map (Char.ofNat high :: ·)
  | .unit n :: rest => if 0xd800 ≤ n ∧ n < 0xe000 then none else (joinPieces rest).map (Char.ofNat n :: ·)

def readString (cs : List Char) : Option (Option String × List Char) :=
  (readPieces cs).map fun (ps, rest) => ((joinPieces ps).map String.ofList, rest)

def readDigits (cs : List Char) : List Nat × List Char :=
  ((cs.takeWhile Char.isDigit).map fun c => c.toNat - 48, cs.dropWhile Char.isDigit)

/-- Reads an exponent, if one stands here. -/
def readExponent : List Char → Option (Int × Bool × List Char)
  | c :: rest =>
    if c = 'e' ∨ c = 'E' then
      let (negative, rest) := match rest with
        | '+' :: r => (false, r)
        | '-' :: r => (true, r)
        | r => (false, r)
      let (digits, rest) := readDigits rest
      if digits.isEmpty then none
      else
        let n : Nat := digits.foldl (fun n d => n * 10 + d) 0
        some (if negative then -(n : Int) else n, true, rest)
    else some (0, false, c :: rest)
  | [] => some (0, false, [])

/-- Reads a number: no needless zero in front, digits on both sides of a point. -/
def readNumber (cs : List Char) : Option (Numeral × List Char) :=
  let (negative, cs) := match cs with
    | '-' :: r => (true, r)
    | r => (false, r)
  let (whole, cs) := readDigits cs
  if whole.isEmpty || (whole.length > 1 && whole.head? == some 0) then none
  else
    let (pointed, cs) := match cs with
      | '.' :: r => (true, r)
      | r => (false, r)
    let (fraction, cs) := if pointed then readDigits cs else ([], cs)
    if pointed && fraction.isEmpty then none
    else (readExponent cs).map fun (exponent, hasExponent, rest) =>
      (⟨negative, whole, fraction, exponent, !pointed && !hasExponent⟩, rest)

def readWord (word : String) (value : Tree) (cs : List Char) : Option (Tree × List Char) :=
  if word.toList.isPrefixOf cs then some (value, cs.drop word.length) else none

mutual

/-- Reads a value, blanks in front allowed; `fuel` bounds the characters looked at. -/
def readTree : (fuel : Nat) → List Char → Option (Tree × List Char)
  | 0, _ => none
  | fuel + 1, cs =>
    match skipBlanks cs with
    | '"' :: rest => (readString rest).map fun (s, rest) => (.str s, rest)
    | '[' :: rest =>
      match skipBlanks rest with
      | ']' :: rest => some (.arr [], rest)
      | _ => (readItems fuel rest).map fun (items, rest) => (.arr items, rest)
    | '\x7b' :: rest =>
      match skipBlanks rest with
      | '\x7d' :: rest => some (.obj [], rest)
      | _ => (readMembers fuel rest).map fun (members, rest) => (.obj members, rest)
    | 'n' :: rest => readWord "ull" .null rest
    | 't' :: rest => readWord "rue" (.bool true) rest
    | 'f' :: rest => readWord "alse" (.bool false) rest
    | cs => (readNumber cs).map fun (n, rest) => (.number n, rest)

def readItems : (fuel : Nat) → List Char → Option (List Tree × List Char)
  | 0, _ => none
  | fuel + 1, cs =>
    match readTree fuel cs with
    | none => none
    | some (item, rest) =>
      match skipBlanks rest with
      | ',' :: rest => (readItems fuel rest).map fun (items, rest) => (item :: items, rest)
      | ']' :: rest => some ([item], rest)
      | _ => none

def readMembers : (fuel : Nat) → List Char → Option (List (Option String × Tree) × List Char)
  | 0, _ => none
  | fuel + 1, cs =>
    match skipBlanks cs with
    | '"' :: rest =>
      match readString rest with
      | none => none
      | some (name, rest) =>
        match skipBlanks rest with
        | ':' :: rest =>
          match readTree fuel rest with
          | none => none
          | some (value, rest) =>
            match skipBlanks rest with
            | ',' :: rest => (readMembers fuel rest).map fun (members, rest) => ((name, value) :: members, rest)
            | '\x7d' :: rest => some ([(name, value)], rest)
            | _ => none
        | _ => none
    | _ => none

end

/-- Reads a whole text, blanks around the value allowed. -/
def readText (cs : List Char) : Option Tree :=
  match readTree (2 * cs.length + 2) cs with
  | some (tree, rest) => if (skipBlanks rest).isEmpty then some tree else none
  | none => none

namespace Numeral

/-- As many leading digits as fit in 64 bits, and how many were left over. -/
def accumulate : List Nat → Nat → Nat × Nat
  | [], n => (n, 0)
  | d :: rest, n => if n * 10 + d < UInt64.size then accumulate rest (n * 10 + d) else (n, rest.length + 1)

/-- The significand and the exponent of ten: whole digits that do not fit in 64 bits count as powers
of ten, and the fraction is appended as far as it fits behind what was kept. -/
def significand (n : Numeral) : Nat × Int :=
  let (whole, dropped) := accumulate n.whole 0
  let (digits, left) := accumulate n.fraction whole
  (digits, n.exponent + dropped - ((n.fraction.length - left : Nat) : Int))

/-- Whole numbers in the 64-bit ranges are integers, except for a negative zero; all others are
binary fractions. `none` if the number is too large. -/
def value? (n : Numeral) : Option Json :=
  let (whole, dropped) := accumulate n.whole 0
  if n.isWhole ∧ dropped = 0 ∧ ¬ n.negative then some (.integer whole)
  else if n.isWhole ∧ dropped = 0 ∧ 0 < whole ∧ whole ≤ Nat.pow 2 63 then some (.integer (-(whole : Int)))
  else
    let (digits, exponent) := n.significand
    (Real.ofDecimal? digits exponent).map fun (m, e) => .real ⟨n.negative, m, e⟩

end Numeral

namespace Tree

/-- The levels of arrays and objects that a value may nest. -/
def maxDepth : Nat := 127

mutual

/-- The value of a tree that nests at most `depth` levels; of equal names the last counts. -/
def value? (depth : Nat) : Tree → Option Json
  | null => some .null
  | bool b => some (.bool b)
  | number n => n.value?
  | str s => s.map .str
  | arr items => if depth = 0 then none else (values? (depth - 1) items).map .arr
  | obj members => if depth = 0 then none else (memberValues? (depth - 1) members).map ofMembers

def values? (depth : Nat) : List Tree → Option (List Json)
  | [] => some []
  | item :: rest => (value? depth item).bind fun v => (values? depth rest).map (v :: ·)

def memberValues? (depth : Nat) : List (Option String × Tree) → Option (List (String × Json))
  | [] => some []
  | (name, item) :: rest =>
    name.bind fun n => (value? depth item).bind fun v => (memberValues? depth rest).map ((n, v) :: ·)

end

/-- Whether a name occurs twice. -/
def hasRepeated : List String → Bool
  | [] => false
  | n :: rest => rest.contains n || hasRepeated rest

/-- Members whose names have a value. -/
def named? (members : List (Option String × Tree)) : Option (List (String × Tree)) :=
  members.mapM fun (m : Option String × Tree) => m.1.map fun n => (n, m.2)

/-- The value that a structure with the named fields is read from: repeated fields are refused, and
other members are dropped whatever they hold. -/
def struct? (names : List String) : Tree → Option Json
  | obj members => (named? members).bind fun named =>
    let known := named.filter fun m => names.contains m.1
    if hasRepeated (known.map (·.1)) then none
    else (known.mapM fun (m : String × Tree) => (value? maxDepth m.2).map fun v => (m.1, v)).map ofMembers
  | tree => value? maxDepth tree

end Tree

/-- The value of a text. -/
def parse? (text : String) : Option Json := (readText text.toList).bind (Tree.value? Tree.maxDepth)

/-- The value of a text in UTF-8. -/
def parseBytes? (bytes : Bytes) : Option Json := (Bytes.toText? bytes).bind parse?

/-- The value that a structure with the named fields is read from. -/
def parseStruct? (names : List String) (text : String) : Option Json :=
  (readText text.toList).bind (Tree.struct? names)

end ProximityCert.Json
