import Enclosure.Assembly
import Enclosure.Lua.State

/-!
# The full environment as a host

Globals are read and set without metamethods, so that a metatable on the globals cannot make an absent
name look present. Fields of modules are read through metamethods. Modules are found by the function
that is the global `require` at the time.
-/

namespace Enclosure.Environment

open Lua

/-- What assembly is told of a failure. -/
def causeOf (f : Failure) : Cause := .text f.message

/-- An action as assembly sees it. -/
def attempt {α : Type} (m : Lua.Action α) : Attempt State Cause α := m.mapError causeOf

/-- A value that is absent if it is nil. -/
def present (v : Value) : Option Value := if v.isNil then none else some v

def global (name : String) : Attempt State Cause (Option Value) := attempt do
  return present (← Action.rawGetText (← Action.globals) name)

def require (module : String) : Attempt State Cause TableId := do
  let f ← attempt do Action.rawGetText (← Action.globals) "require"
  match f with
  | .func _ =>
    let vs ← attempt (Action.call f [.text module])
    match Run.first vs with
    | .table t => return t
    | v =>
      Attempt.fail (.text ("require \"" ++ module ++ "\" returned a " ++ v.fineTypeName
        ++ " instead of a table"))
  | _ => Attempt.fail (.text "require is not available in the full environment")

def field (t : TableId) (name : String) : Attempt State Cause (Option Value) := attempt do
  return present (← Action.get (.table t) (.text name))

def bind (ns : TableId) (name : String) (v : Value) : Attempt State Cause Unit :=
  attempt (Action.rawSetText ns name v)

def host : Host State Value TableId TableId where
  global := global
  require := require
  field := field
  newNamespace := attempt Action.newTable
  bind := bind
  install ns name child := bind ns name (.table child)

end Enclosure.Environment
