import Enclosure.Lua.Chunk
import Enclosure.Lua.Operation
import Enclosure.Text.Utf8

/-!
# Failures

What the host is told when a script fails. An error that is no string is told by its text, which a
metamethod may give and which may fail in turn. An error that the host raised itself comes back as it
was.
-/

namespace Enclosure.Lua

inductive Failure
  | runtime (message : String)
  | source (message : String)
  /-- A value has no place in the type that the host wants. -/
  | conversion (kind target : String) (why : Option String)
  /-- An error of the host, by its text. -/
  | host (text : String)
  | exhausted
  deriving DecidableEq, Repr

namespace Failure

open Run

def message : Failure → String
  | .runtime m => "runtime error: " ++ m
  | .source m => "syntax error: " ++ m
  | .conversion kind target why =>
    "error converting Lua " ++ kind ++ " to " ++ target
      ++ (match why with
          | some w => " (" ++ w ++ ")"
          | none => "")
  | .host text => text
  | .exhausted => "runtime error: not enough memory"

def ofLoadError : Chunk.LoadError → Failure
  | .source m => .source m.textLossy
  | .other m => .runtime m.textLossy

/-- How often the text of an error may fail. -/
def describeLimit : Nat := 200

/-- An error as the host gets it: a string, or an error of the host. -/
def describeFrom : Nat → Value → Run Value
  | 0, _ => pure (.text "C stack overflow")
  | fuel + 1, v => do
    match v with
    | .str s => return .str s
    | v =>
      let own ← read fun s =>
        match v with
        | .object o =>
          match s.object o with
          | .failure _ => true
          | .file _ => false
        | _ => false
      if own then return v
      let h ← metamethod v "__tostring"
      if h.isNil then return .str (← Operation.plainText v)
      match ← ask (.protectedCall h [v] none) with
      | .bool true :: vs =>
        match (first vs).bytes? with
        | some b => return .str b
        | none => return .text "'__tostring' must return a string"
      | answer => describeFrom fuel (first answer.tail)

def describe (v : Value) : Run Value := describeFrom describeLimit v

/-- The failure that a described error is. -/
def ofDescribed (s : Store) : Value → Failure
  | .str b => .runtime b.textLossy
  | .object o =>
    match s.object o with
    | .failure text => .host text.textLossy
    | .file _ => .runtime ""
  | _ => .runtime ""

/-- Raises a failure as an error of the host. -/
def raise {α : Type} (f : Failure) : Run α :=
  match f with
  | .exhausted => throw .exhausted
  | f => failHost (Bytes.ofText f.message)

/-- A call by a function of the host: an error comes out of it as one of the host. -/
def callFromHost (f : Value) (args : List Value) : Run (List Value) := do
  match ← ask (.protectedCall f args none) with
  | .bool true :: vs => return vs
  | answer =>
    let e ← describe (first answer.tail)
    let failure ← read fun s => ofDescribed s e
    failure.raise

end Failure

end Enclosure.Lua
