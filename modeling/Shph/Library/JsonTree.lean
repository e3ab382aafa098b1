/-
JSON values as trees.  An object is a table in the order of its names, and a
number is kept as an integer or as a floating-point number, the way it came.
-/
import Shph.Library.Binary64
import Shph.Library.OrderedTable

namespace JsonTree

/-- Integers from zero on, integers below zero, and all other numbers. -/
inductive Number where
  | posInt (value : UInt64)
  | negInt (value : Int)
  | float (value : Binary64)
deriving Repr, DecidableEq

inductive Json where
  | null
  | bool (value : Bool)
  | number (value : Number)
  | string (value : String)
  | array (items : List Json)
  | object (members : List (String × Json))
deriving Repr

namespace Json

def ofMembers (members : List (String × Json)) : Json :=
  .object (OrderedTable.ofEntries members)

def asString : Json → Option String
  | .string value => some value
  | _ => none

@[simp] theorem asString_eq_some_iff {value : Json} {text : String} :
    asString value = some text ↔ value = .string text := by
  cases value <;> simp [asString]

def ofOption {A : Type} (write : A → Json) : Option A → Json
  | some value => write value
  | none => .null

/-- A number that is not finite is written as null. -/
def ofBinary64 (value : Binary64) : Json :=
  if value.isFinite then .number (.float value) else .null

def ofUInt16 (value : UInt16) : Json :=
  .number (.posInt (UInt64.ofNat value.toNat))

def ofUInt32 (value : UInt32) : Json :=
  .number (.posInt (UInt64.ofNat value.toNat))

def ofUInt64 (value : UInt64) : Json := .number (.posInt value)

def ofStrings (values : List String) : Json := .array (values.map .string)

end Json

end JsonTree
