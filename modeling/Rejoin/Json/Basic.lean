import Rejoin.Number.Binary64
import Rejoin.Text.Hex

/-!
# JSON values

Values as they are written: members keep their order and may repeat, and numbers keep the digits a reader takes.

* `Numeral.magnitude?` — what a reader takes a number for;
* `Json.chars`, `Json.text` — the compact form of a value;
* `Json.depth` — how deep arrays and objects nest.
-/

namespace Rejoin

/-- A number as a reader finds it: an integer, or digits with a decimal exponent.  Minus zero and integers that do
not fit 64 bits count as the latter. -/
inductive Numeral where
  | integer (n : Int)
  | decimal (negative : Bool) (digits : Nat) (exponent : Int)
deriving DecidableEq, Repr

/-- How a reader takes a number: an integer of 64 bits, or floating point with its sign. -/
inductive Magnitude where
  | integer (n : Int)
  | floating (negative : Bool) (x : Binary64)

/-- What a number stands for; one too large for floating point is refused. -/
def Numeral.magnitude? : Numeral → Option Magnitude
  | .integer n => some (.integer n)
  | .decimal negative m e => (Binary64.ofDecimal m e).map (.floating negative)

/-- A JSON value.  `flawed` stands for a string whose escapes leave a surrogate unpaired: it can be
skipped but not read.  As a member's value under the empty name, `flawed true` stands for a member whose name is
such a string. -/
inductive Json where
  | null
  | bool (b : Bool)
  | number (n : Numeral)
  | string (s : String)
  | array (xs : List Json)
  | object (ms : List (String × Json))
  | flawed (name : Bool)
deriving Repr, Inhabited

namespace Json

/-- A whole number. -/
def nat (n : Nat) : Json := .number (.integer n)

/-- A string, or null. -/
def string? : Option String → Json
  | none => .null
  | some s => .string s

/-! ### Writing -/

/-- A character inside a JSON string. -/
def escape (c : Char) : List Char :=
  if c = '"' then ['\\', '"']
  else if c = '\\' then ['\\', '\\']
  else if c = '\n' then ['\\', 'n']
  else if c = '\r' then ['\\', 'r']
  else if c = '\t' then ['\\', 't']
  else if c = '\x08' then ['\\', 'b']
  else if c = '\x0c' then ['\\', 'f']
  else if c.toNat < 0x20 then ['\\', 'u', '0', '0'] ++ Text.hexByte (UInt8.ofNat c.toNat)
  else [c]

def quote (s : String) : List Char := '"' :: s.toList.flatMap escape ++ ['"']

def digits (n : Nat) : List Char := (toString n).toList

/-- A number, where floating point is written by the digits that read back; null for one that is refused. -/
def numeral : Numeral → List Char
  | .integer (.ofNat n) => digits n
  | .integer (.negSucc n) => '-' :: digits (n + 1)
  | .decimal negative m e => (((Binary64.ofDecimal m e).map (·.text negative)).getD "null").toList

mutual

/-- The compact text of a value. -/
def chars : Json → List Char
  | .null => "null".toList
  | .bool true => "true".toList
  | .bool false => "false".toList
  | .number n => numeral n
  | .string s => quote s
  | .array [] => ['[', ']']
  | .array (x :: xs) => '[' :: chars x ++ charsElements xs
  | .object [] => ['\x7b', '\x7d']
  | .object ((k, v) :: ms) => '\x7b' :: quote k ++ ':' :: chars v ++ charsMembers ms
  | .flawed _ => "null".toList

/-- The elements after the first one, and the end of the array. -/
def charsElements : List Json → List Char
  | [] => [']']
  | x :: xs => ',' :: chars x ++ charsElements xs

/-- The members after the first one, and the end of the object. -/
def charsMembers : List (String × Json) → List Char
  | [] => ['\x7d']
  | (k, v) :: ms => ',' :: quote k ++ ':' :: chars v ++ charsMembers ms

end

/-- The compact text of a value. -/
def text (j : Json) : String := String.ofList j.chars

/-! ### Shape -/

mutual

/-- How deep arrays and objects nest. -/
def depth : Json → Nat
  | .array xs => depthElements xs + 1
  | .object ms => depthMembers ms + 1
  | _ => 0

def depthElements : List Json → Nat
  | [] => 0
  | x :: xs => max (depth x) (depthElements xs)

def depthMembers : List (String × Json) → Nat
  | [] => 0
  | (_, v) :: ms => max (depth v) (depthMembers ms)

end

end Json

end Rejoin
