import Enclosure.Lua.Failure
import Enclosure.Lua.Library.Argument

/-!
# Functions that an enclosure adds

A protected table is reached only through a stand-in whose metatable holds the functions here. Each
holds the values that it works on.
-/

namespace Enclosure.Lua.Library.Guard

open Run

/-- The line that captured printing writes: the texts with tabs between them. -/
def lineOf (texts : List Bytes) : Bytes :=
  Bytes.join (Bytes.ofText "\t") (texts.map fun b => Bytes.ofText b.textLossy)
    ++ Bytes.ofText "\n"

/-- The text of a value by the function for it that was there when printing was set up. -/
def printed (toText : Value) (v : Value) : Run Bytes := do
  let t := first (← Failure.callFromHost toText [v])
  match t.bytes? with
  | some b => return b
  | none => (Failure.conversion t.typeName "string" (some "expected string or number")).raise

def printedAll (toText : Value) : List Value → Run (List Bytes)
  | [] => pure []
  | v :: vs => do
    let b ← printed toText v
    let bs ← printedAll toText vs
    return b :: bs

/-- Writes a line to the captured output once all its texts are known. -/
def print (captured : Array Value) (args : Args) : Run (List Value) := do
  let texts ← printedAll (captured.getD 0 .nil) args
  modify fun s => { s with output := s.output ++ lineOf texts }
  return []

def run (f : GuardFunction) (captured : Array Value) (args : Args) : Run (List Value) := do
  match f with
  | .print => print captured args
  | .refuseWrite =>
    failHost (Bytes.ofText "runtime error: table " ++ Operation.addressOf (args.arg 1)
      ++ Bytes.ofText " is write protected")
  | .length =>
    match captured.getD 0 .nil with
    | .table t => return [.nat (← rawLength t)]
    | _ => return [.int 0]
  | .pairs => return [captured.getD 1 .nil, captured.getD 0 .nil, .nil]
  | .constant => return captured.toList
  | .failureText =>
    match args.arg 1 with
    | .object o =>
      match ← read (·.object o) with
      | .failure text => return [.str text]
      | .file _ => return [.nil]
    | _ => return [.nil]

end Enclosure.Lua.Library.Guard
