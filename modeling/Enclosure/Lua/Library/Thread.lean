import Enclosure.Lua.Library.Argument

/-!
# The library `coroutine`

The functions ask for what only the machine can do. A wrapped thread hands its errors on; a message
gets the position of the caller in front.
-/

namespace Enclosure.Lua.Library.Thread

open Run

def thread (args : Args) (n : Nat) : Run ThreadId :=
  match args.arg n with
  | .thread t => pure t
  | _ => args.failType n "coroutine"

def statusOf (t : ThreadId) : Run Bytes := do
  match first (← ask (.status t)) with
  | .str s => return s
  | _ => return .empty

def close (args : Args) : Run (List Value) := do
  let t ← thread args 1
  let status ← statusOf t
  if status == Bytes.ofText "suspended" || status == Bytes.ofText "dead" then ask (.closeThread t)
  else failBytes (Bytes.ofText "cannot close a " ++ status ++ Bytes.ofText " coroutine")

def create (args : Args) : Run Value := do
  let f ← args.function 1
  return first (← ask (.spawn f))

def wrapped (captured : Array Value) (args : Args) : Run (List Value) := do
  match captured.getD 0 .nil with
  | .thread t =>
    match ← ask (.resume t args) with
    | .bool true :: vs => return vs
    | answer =>
      let e := first answer.tail
      -- a thread that was run and failed is closed, which may change the error
      let e ←
        if (← statusOf t) == Bytes.ofText "dead" then do
          match ← ask (.closeThread t) with
          | [.bool false, e'] => pure (if e'.isNil then e else e')
          | _ => pure e
        else pure e
      match e with
      | .str s => failBytes s
      | e => throw (.value e)
  | _ => return []

def run (f : CoroutineFunction) (captured : Array Value) (args : Args) : Run (List Value) := do
  match f with
  | .close => close args
  | .create => return [← create args]
  | .isYieldable =>
    match args.get? 1 with
    | none => ask (.isYieldable none)
    | some _ => ask (.isYieldable (some (← thread args 1)))
  | .resume =>
    let t ← thread args 1
    ask (.resume t (args.drop 1))
  | .running => ask .running
  | .status => return [.str (← statusOf (← thread args 1))]
  | .wrap => return [← newBuiltin (.coroutine .wrapped) [← create args]]
  | .wrapped => wrapped captured args
  | .yield => ask (.yield args)

end Enclosure.Lua.Library.Thread
