import Enclosure.Lua.Datum
import Enclosure.Lua.Result
import Enclosure.Text.Quoted

/-!
# Native modules

A native module is an opener, which makes the module's table in a state, and the entry points that are
to be taken out of that table before anyone gets it.
-/

namespace Enclosure

open Lua

structure NativeModule where
  name : String
  opener : Lua.Action TableId
  /-- The entry points that are taken out. -/
  disabled : List String := []

namespace NativeModule

/-- The texts between brackets. -/
def shownList (names : List String) : String :=
  "[" ++ ", ".intercalate (names.map Quoted.quote) ++ "]"

def shown (m : NativeModule) : String :=
  "NativeModule \x7b name: " ++ Quoted.quote m.name ++ ", opener: \"<fn>\", disabled: "
    ++ shownList m.disabled ++ " \x7d"

end NativeModule

/-- What stands behind the fields of a module's table. -/
inductive Backing
  | none
  /-- A table that has further fields. -/
  | fields (fs : List (String × Datum))
  /-- A function that fails at every access. -/
  | failing (message : String)

namespace Opener

def failing (message : String) : Lua.Action TableId := Attempt.fail (.runtime message)

def tableOf (fs : List (String × Datum)) : Lua.Action TableId := do
  let v ← Action.build (.table (Datum.fields fs))
  let t ← Attempt.of fun st => (Result.table v, st)
  return t

def withIndex (t : TableId) (index : Value) : Lua.Action TableId := do
  let events ← Action.newTable
  Action.rawSetText events "__index" index
  Action.modify (·.modifyTable t fun t => { t with metatable := some events })
  return t

/-- Makes a table with the fields and something behind them. -/
def fields (fs : List (String × Datum)) (backing : Backing) : Lua.Action TableId := do
  let t ← tableOf fs
  match backing with
  | .none => return t
  | .fields more => withIndex t (.table (← tableOf more))
  | .failing message =>
    withIndex t (← Action.newCallback fun _ => (Failure.runtime message).raise)

/-- Runs a source in the full environment, which must answer a table. -/
def source (text : String) : Lua.Action TableId := do
  let vs ← Action.evaluate (Bytes.ofText text) (Bytes.ofText "=native") Action.anyMode
  Attempt.of fun st => (Result.table (Run.first vs), st)

end Opener

end Enclosure
