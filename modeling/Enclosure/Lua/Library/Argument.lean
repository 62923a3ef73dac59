import Enclosure.Lua.Operation

/-!
# Arguments of library functions

Arguments are numbered from one. A check gives the argument in the form that a function wants, or the
error that names the function and the argument. A string that spells a number is taken for one, and a
number for its text.
-/

namespace Enclosure.Lua

abbrev Args := List Value

namespace Args

open Run

/-- The argument numbered `n`, if it was given. -/
def get? (args : Args) (n : Nat) : Option Value := args[n - 1]?

/-- The argument numbered `n`; nil if it was not given. -/
def arg (args : Args) (n : Nat) : Value := args.getD (n - 1) .nil

/-- Whether the argument is nil or was not given. -/
def absent (args : Args) (n : Nat) : Bool := (args.arg n).isNil

/-- What messages say was got. -/
def gotText (args : Args) (n : Nat) : Run Bytes :=
  match args.get? n with
  | none => pure (Bytes.ofText "no value")
  | some v => Operation.shownType v

/-- The argument should have been something else. -/
def failType {α : Type} (args : Args) (n : Nat) (expected : String) : Run α := do
  let got ← args.gotText n
  throw (.argument n (Bytes.ofText (expected ++ " expected, got ") ++ got))

/-- Any value, but there must be one. -/
def any (args : Args) (n : Nat) : Run Value :=
  match args.get? n with
  | some v => pure v
  | none => badArgument n "value expected"

def number (args : Args) (n : Nat) : Run Numeral :=
  match (args.arg n).toNumeral? with
  | some x => pure x
  | none => args.failType n "number"

def double (args : Args) (n : Nat) : Run Double := do return (← args.number n).toDouble

def integer (args : Args) (n : Nat) : Run Int64 := do
  let x ← args.number n
  match x.toInt64? with
  | some i => pure i
  | none => badArgument n "number has no integer representation"

def integerOr (args : Args) (n : Nat) (default : Int64) : Run Int64 :=
  if args.absent n then pure default else args.integer n

def doubleOr (args : Args) (n : Nat) (default : Double) : Run Double :=
  if args.absent n then pure default else args.double n

def string (args : Args) (n : Nat) : Run Bytes :=
  match (args.arg n).bytes? with
  | some b => pure b
  | none => args.failType n "string"

def stringOr (args : Args) (n : Nat) (default : Bytes) : Run Bytes :=
  if args.absent n then pure default else args.string n

def table (args : Args) (n : Nat) : Run TableId :=
  match args.arg n with
  | .table t => pure t
  | _ => args.failType n "table"

def function (args : Args) (n : Nat) : Run Value :=
  match args.arg n with
  | .func f => pure (.func f)
  | _ => args.failType n "function"

/-- One of some words; the first if the argument is absent. -/
def option (args : Args) (n : Nat) (words : List String) : Run String := do
  let given ← args.stringOr n (Bytes.ofText (words.headD ""))
  match words.find? fun w => Bytes.ofText w == given with
  | some w => pure w
  | none =>
    throw (.argument n (Bytes.ofText "invalid option '" ++ given ++ Bytes.ofText "'"))

end Args

end Enclosure.Lua
