import Enclosure.Number.Numeral

/-!
# Values of scripts

Tables, functions, threads and host objects are named by numbers into the store, so two values are
the same object exactly when they are equal. As a key of a table, a double with an integral value is
that integer; nil and NaN are no keys.
-/

namespace Enclosure.Lua

structure TableId where
  index : Nat
  deriving DecidableEq, Hashable, Repr

structure FuncId where
  index : Nat
  deriving DecidableEq, Hashable, Repr

structure ThreadId where
  index : Nat
  deriving DecidableEq, Hashable, Repr

structure ObjectId where
  index : Nat
  deriving DecidableEq, Hashable, Repr

inductive Value
  | nil
  | bool (b : Bool)
  | int (n : Int64)
  | float (d : Double)
  | str (s : Bytes)
  | table (t : TableId)
  | func (f : FuncId)
  | thread (t : ThreadId)
  | object (o : ObjectId)
  deriving DecidableEq, Hashable

namespace Value

instance : Inhabited Value := ⟨.nil⟩

/-- A string value from a text. -/
def text (s : String) : Value := .str (Bytes.ofText s)

def nat (n : Nat) : Value := .int (Int64.ofNat n)

def number : Numeral → Value
  | .int n => .int n
  | .float d => .float d

/-- Everything but nil and false counts as true. -/
def truthy : Value → Bool
  | .nil => false
  | .bool b => b
  | _ => true

def isNil : Value → Bool
  | .nil => true
  | _ => false

def typeName : Value → String
  | .nil => "nil"
  | .bool _ => "boolean"
  | .int _ => "number"
  | .float _ => "number"
  | .str _ => "string"
  | .table _ => "table"
  | .func _ => "function"
  | .thread _ => "thread"
  | .object _ => "userdata"

/-- The name of a value's type where integers are told from other numbers. -/
def fineTypeName : Value → String
  | .int _ => "integer"
  | v => v.typeName

/-- The key that a value is in a table. -/
def asKey? : Value → Option Value
  | .nil => none
  | .float d =>
    match d.toInt64? with
    | some n => some (.int n)
    | none => if d.isNan then none else some (.float d)
  | v => some v

/-- Equality without metamethods: numbers by value, all else by identity. -/
def rawEq : Value → Value → Bool
  | .int a, .int b => a == b
  | .float a, .float b => a.beq b
  | .int a, .float b => b.toInt64? == some a
  | .float a, .int b => a.toInt64? == some b
  | a, b => a == b

/-- The number that a value is, strings not counted. -/
def numeral? : Value → Option Numeral
  | .int n => some (.int n)
  | .float d => some (.float d)
  | _ => none

/-- The number that a value is or that its text spells. -/
def toNumeral? : Value → Option Numeral
  | .str s => Numeral.ofBytes? s
  | v => v.numeral?

end Value

end Enclosure.Lua
