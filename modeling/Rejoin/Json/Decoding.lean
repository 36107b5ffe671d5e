import Rejoin.Json.Reader
import Rejoin.Text.Quoted

/-!
# Typed readings of JSON values

A structure is read from an object, whose members are looked at in the order of the text, or from an array of its
fields in their order; unknown members are passed over.  The first fault found is reported, absent fields after
all others.

A value is read directly, where a member that is passed over may hold anything, or buffered, where the whole
value has to be sound (`Json.sound`) and an array that is too long is a fault of its own kind.
-/

namespace Rejoin.Json

/-- What a value is told to be. -/
inductive Shape where
  | null
  | bool (b : Bool)
  | number (m : Magnitude)
  | string (s : String)
  | sequence
  | map

/-- What is told of a value; scalars are told in full. -/
def Shape.text : Shape → String
  | .null => "null"
  | .bool b => "boolean `" ++ toString b ++ "`"
  | .number (.integer n) => "integer `" ++ toString n ++ "`"
  | .number (.floating negative x) => "floating point `" ++ x.text negative ++ "`"
  | .string s => "string " ++ Text.quoted s
  | .sequence => "sequence"
  | .map => "map"

/-- Why a value is not read. -/
inductive Fault where
  | malformed
  | invalidType (got : Shape) (want : String)
  | invalidValue (got : Shape) (want : String)
  | invalidLength (n : Nat) (want : String)
  | missing (field : String)
  | duplicate (field : String)
  | unknownVariant (got : String) (known : List String)
  | other (message : String)

/-- The text of a fault; a malformed value has none of its own. -/
def Fault.message : Fault → String
  | .malformed => "malformed JSON"
  | .invalidType got want => "invalid type: " ++ got.text ++ ", expected " ++ want
  | .invalidValue got want => "invalid value: " ++ got.text ++ ", expected " ++ want
  | .invalidLength n want => "invalid length " ++ toString n ++ ", expected " ++ want
  | .missing f => "missing field `" ++ f ++ "`"
  | .duplicate f => "duplicate field `" ++ f ++ "`"
  | .unknownVariant got known => "unknown variant `" ++ got ++ "`, expected one of "
      ++ String.intercalate ", " (known.map fun k => "`" ++ k ++ "`")
  | .other m => m

/-- How the values inside a structure are reached. -/
inductive Mode where
  | direct
  | buffered
deriving DecidableEq

/-- A reading of values. -/
abbrev Decoder (α : Type) := Mode → Json → Except Fault α

/-- A value of the wrong type; a value that cannot be read at all is malformed. -/
def wrongType {α : Type} (want : String) : Json → Except Fault α
  | .null => .error (.invalidType .null want)
  | .bool b => .error (.invalidType (.bool b) want)
  | .number n =>
    match n.magnitude? with
    | some m => .error (.invalidType (.number m) want)
    | none => .error .malformed
  | .string s => .error (.invalidType (.string s) want)
  | .array _ => .error (.invalidType .sequence want)
  | .object _ => .error (.invalidType .map want)
  | .flawed _ => .error .malformed

/-! ### Soundness of a whole value -/

mutual

/-- Every string is readable and every number in range. -/
def readable : Json → Bool
  | .number n => n.magnitude?.isSome
  | .array xs => readableElements xs
  | .object ms => readableMembers ms
  | .flawed _ => false
  | _ => true

def readableElements : List Json → Bool
  | [] => true
  | x :: xs => readable x && readableElements xs

def readableMembers : List (String × Json) → Bool
  | [] => true
  | (_, v) :: ms => readable v && readableMembers ms

end

/-- The nesting that a buffered value may have. -/
def depthLimit : Nat := 127

/-- A value that can be buffered. -/
def sound (j : Json) : Bool := readable j && decide (j.depth ≤ depthLimit)

/-! ### Leaves -/

def asString : Decoder String
  | _, .string s => .ok s
  | _, j => wrongType "a string" j

def asString? : Decoder (Option String)
  | _, .null => .ok none
  | mode, j => (asString mode j).map some

def asBool : Decoder Bool
  | _, .bool b => .ok b
  | _, j => wrongType "a boolean" j

/-- A natural number below 2^32. -/
def asWord : Decoder Nat
  | _, .number n =>
    match n.magnitude? with
    | some (.integer i) =>
      if 0 ≤ i ∧ i.toNat < Nat.pow 2 32 then .ok i.toNat else .error (.invalidValue (.number (.integer i)) "u32")
    | some m => .error (.invalidType (.number m) "u32")
    | none => .error .malformed
  | _, j => wrongType "u32" j

/-! ### Structures -/

/-- A field not seen before takes its value. -/
def fill {α : Type} (name : String) (old : Option α) (value : Except Fault α) : Except Fault (Option α) :=
  match old with
  | some _ => .error (.duplicate name)
  | none => value.map some

/-- A field that has to be there. -/
def present {α : Type} (name : String) : Option α → Except Fault α
  | some a => .ok a
  | none => .error (.missing name)

/-- A member that no field has; its name has to be readable. -/
def skip {σ : Type} (s : σ) : Json → Except Fault σ
  | .flawed true => .error .malformed
  | _ => .ok s

/-- What a reader of `count` fields expects of an array. -/
def expectation (name : String) (count : Nat) : String :=
  "struct " ++ name ++ " with " ++ toString count ++ (if count = 1 then " element" else " elements")

/-- The element at a place, read; a fault of length where the array ends before. -/
def element {α : Type} (name : String) (count : Nat) (xs : List Json) (i : Nat)
    (read : Json → Except Fault α) : Except Fault α :=
  match xs[i]? with
  | some x => read x
  | none => .error (.invalidLength i (expectation name count))

/-- An array has no elements beyond the first `count`. -/
def noMore (mode : Mode) (count : Nat) (xs : List Json) : Except Fault Unit :=
  if xs.length ≤ count then .ok ()
  else match mode with
    | .direct => .error .malformed
    | .buffered => .error (.invalidLength xs.length
        (toString count ++ (if count = 1 then " element" else " elements") ++ " in sequence"))

/-- A list, every element read in order. -/
def asList {α : Type} (read : Decoder α) : Decoder (List α)
  | mode, .array xs => xs.mapM (read mode)
  | _, j => wrongType "a sequence" j

/-! ### Texts -/

/-- The value that a text holds, read directly. -/
def decode {α : Type} (read : Decoder α) (s : String) : Except Fault α :=
  match read? s.toList with
  | some j => read .direct j
  | none => .error .malformed

end Rejoin.Json
