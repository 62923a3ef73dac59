import Enclosure.Assembly.Host
import Enclosure.Native.Module

/-!
# Loading native modules

A module is loaded only if it is allowed and registered. It is opened once in each state: the table of
a module that was opened with success is kept in the state, out of reach of scripts, and handed out
again. Its entry points that are disabled are taken out first, and nothing may then answer for them.
-/

namespace Enclosure

open Lua

structure NativeLoader where
  /-- The modules by name; a name is registered once. -/
  modules : List (String × NativeModule) := []
  allowed : List String := []

namespace NativeLoader

/-- The modules with one put in under its name. -/
def put (m : NativeModule) : List (String × NativeModule) → List (String × NativeModule)
  | [] => [(m.name, m)]
  | (name, old) :: rest => if name = m.name then (name, m) :: rest else (name, old) :: put m rest

/-- Registers a module in place of another of its name. It still has to be allowed. -/
def register (l : NativeLoader) (m : NativeModule) : NativeLoader :=
  { l with modules := put m l.modules }

def allow (l : NativeLoader) (name : String) : NativeLoader :=
  { l with allowed := name :: l.allowed }

/-- Allows the modules that are registered now. -/
def allowRegistered (l : NativeLoader) : NativeLoader :=
  { l with allowed := l.modules.map (·.1) ++ l.allowed }

def permits (l : NativeLoader) (name : String) : Bool := l.allowed.contains name

def module? (l : NativeLoader) (name : String) : Option NativeModule := l.modules.lookup name

def registered (l : NativeLoader) (name : String) : Bool := (l.module? name).isSome

def size (l : NativeLoader) : Nat := l.modules.length

/-- An action of an opening, with its failure told as the module's. -/
def during {α : Type} (module : String) (m : Lua.Action α) : Attempt State LoadRefusal α :=
  m.mapError fun f => .opening module f.message

/-- Takes an entry point out of a module's table; nothing may answer for it afterwards. -/
def disable (module : String) (t : TableId) (entry : String) : Attempt State LoadRefusal Unit := do
  during module (Action.rawSetText t entry .nil)
  let v ← during module (Action.get (.table t) (.text entry))
  if v.isNil then return
  Attempt.fail (.opening module
    ("disabled entry point " ++ entry ++ " is still reachable through the module metatable"))

/-- Opens a module and keeps its table. -/
def openModule (m : NativeModule) (name : String) : Attempt State LoadRefusal TableId := do
  during name (Action.modify fun s => { s with opened := m.name :: s.opened })
  let t ← during name m.opener
  Attempt.each (disable name t) m.disabled
  during name (Action.modify fun s => { s with natives := (name, t) :: s.natives })
  return t

/-- The table of a module, which is opened unless it was opened in this state before. -/
def load (l : NativeLoader) (name : String) : Attempt State LoadRefusal TableId := do
  if !l.permits name then Attempt.fail (.notPermitted name)
  let m ← Attempt.orFail (.notRegistered name) (l.module? name)
  match ← Attempt.read fun st => st.store.natives.lookup name with
  | some t => return t
  | none => openModule m name

/-- The loader as assembly uses it. -/
def native (l : NativeLoader) : NativeLoad State TableId := fun name =>
  (l.load name).mapError .refusal

end NativeLoader

end Enclosure
