import Enclosure.Lua.Result
import Enclosure.Lua.State

/-!
# Write protection

A stand-in for a table: reading, length and iteration go through to the table, and every assignment
fails. The metatable of the stand-in is locked, so that it leads nobody to the table.
-/

namespace Enclosure.Protection

open Lua

/-- The global `next`, which must be a function. -/
def nextFunction : Lua.Action Value := do
  match ← Action.rawGetText (← Action.globals) "next" with
  | .func f => return .func f
  | v => Attempt.fail (.conversion v.fineTypeName "function" none)

/-- A new stand-in for a table. -/
def protect (t : TableId) : Lua.Action TableId := do
  let proxy ← Action.newTable
  let events ← Action.newTable
  Action.rawSetText events "__index" (.table t)
  Action.rawSetText events "__newindex" (← Action.newBuiltin (.guard .refuseWrite) [])
  Action.rawSetText events "__len" (← Action.newBuiltin (.guard .length) [.table t])
  let next ← nextFunction
  Action.rawSetText events "__pairs" (← Action.newBuiltin (.guard .pairs) [.table t, next])
  Action.rawSetText events "__metatable" (.bool false)
  Action.modify (·.modifyTable proxy fun p => { p with metatable := some events })
  return proxy

end Enclosure.Protection
