import Enclosure.Environment
import Enclosure.Protection
import Enclosure.Sandbox.Config

/-!
# Sandboxes

A sandbox is a state with the whole standard library and a restricted environment that the scripts run
in. It is built in phases: the environment is assembled from the policy; native modules that are
trusted, functions of the host, script modules and the arguments are bound on top. A configuration
with a defect fails before anything of this is done.
-/

namespace Enclosure

open Lua

structure Sandbox where
  state : State
  /-- The restricted environment. -/
  env : TableId
  capturesOutput : Bool

namespace Sandbox

/-! ## Building -/

/-- An action of the build. -/
def hosted {α : Type} (m : Lua.Action α) : Attempt State Fault α :=
  m.mapError fun f => .host (Environment.causeOf f)

/-- Puts a function in the place of the global `print` that writes to the captured output. -/
def capturePrint : Attempt State Fault Unit := hosted do
  let globals ← Action.globals
  let toText ← Action.rawGetText globals "tostring"
  Action.rawSetText globals "print" (← Action.newBuiltin (.guard .print) [toText])

def bindTrusted (loader : NativeLoader) (env : TableId) (name : String) :
    Attempt State Fault Unit := do
  let t ← (loader.load name).mapError fun r => .restrictedLoad name (.refusal r)
  hosted (Action.rawSetText env name (.table t))

def bindFunction (env : TableId) (f : HostFunction) : Attempt State Fault Unit := hosted do
  Action.rawSetText env f.name (← Action.newCallback f.run)

/-- The path of a file in a directory; a path from the root stands for itself. -/
def joinPath (directory file : String) : String :=
  if file.startsWith "/" then file
  else if directory.isEmpty then file
  else if directory.endsWith "/" then directory ++ file
  else directory ++ "/" ++ file

def scriptPath (directory name : String) : String := joinPath directory (name ++ ".lua")

/-- The table that the file of a script module answers. -/
def scriptTable (directory name : String) : Attempt State Fault TableId := do
  let path := scriptPath directory name
  hosted (Action.modify fun s => { s with tried := path :: s.tried })
  match ← hosted (Action.read fun s => s.files.read path) with
  | .error e => Attempt.fail (.scriptModule name (path ++ ": " ++ e.message))
  | .ok source =>
    let vs ← (Action.evaluate source (Bytes.ofText ("@" ++ path)) Action.textMode).mapError
      fun f => .scriptModule name f.message
    match Run.first vs with
    | .table t => return t
    | v =>
      Attempt.fail (.scriptModule name
        ("returned a " ++ v.fineTypeName ++ " instead of a table"))

def bindScript (directory : String) (env : TableId) (name : String) :
    Attempt State Fault Unit := do
  let t ← scriptTable directory name
  hosted (Action.rawSetText env name (.table t))

/-- Sets the keys from `i` on to texts. -/
def setTexts (t : TableId) : Nat → List String → Lua.Action Unit
  | _, [] => pure ()
  | i, s :: rest => do
    Action.modify (·.modifyTable t (·.set (.nat i) (.text s)))
    setTexts t (i + 1) rest

def bindArgs (env : TableId) (args : List String) : Attempt State Fault Unit :=
  if args.isEmpty then pure ()
  else hosted do
    let t ← Action.newTable
    setTexts t 1 args
    Action.rawSetText env Config.argsName (.table t)

/-- Builds the restricted environment of a configuration without defects. -/
def build (c : Config) : Attempt State Fault TableId := do
  if c.capturesOutput then capturePrint
  let loader := c.loader
  let env ← Assembly.assemble Environment.host loader.native c.policy
  Attempt.each (bindTrusted loader env) c.trusted
  Attempt.each (bindFunction env) c.functions
  Attempt.each (bindScript c.modulePath env) c.scriptModules
  bindArgs env c.args
  return env

/-- The sandbox of a configuration, and the state that the attempt to build it left. -/
def create (c : Config) (around : Surroundings) : Except Fault Sandbox × State :=
  let st := State.fresh around
  match c.defect with
  | some d => (.error (.defect d), st)
  | none =>
    match (build c).on st with
    | (.ok env, st) => (.ok ⟨st, env, c.capturesOutput⟩, st)
    | (.error e, st) => (.error e, st)

/-! ## Use -/

/-- What the host does with a sandbox. -/
abbrev Use (α : Type) := Attempt Sandbox Fault α

/-- An action on the sandbox's state, with its failure told as a fault. -/
def acting {α : Type} (fault : Failure → Fault) (m : Lua.Action α) : Use α :=
  Attempt.of fun sb =>
    match m.on sb.state with
    | (.ok a, state) => (.ok a, { sb with state })
    | (.error f, state) => (.error (fault f), { sb with state })

/-- Results in the type that the host wants. -/
def convert {R : Type} [OfResults R] (vs : List Value) : Lua.Action R :=
  Attempt.of fun st => (OfResults.ofResults st.store vs, st)

/-- Calls a function and takes its results. -/
def finish {R : Type} [OfResults R] (chunk : String) (f : Value) (args : List Value) : Use R :=
  acting (fun e => .scriptRuntime chunk e.message) do
    let vs ← Action.call f args
    convert vs

/-- Runs a source in the restricted environment; `name` is what its messages call it. -/
def run {R : Type} [OfResults R] (source name : Bytes) (chunk : String) : Use R := do
  let env ← Attempt.read (·.env)
  let f ← acting (fun e => .scriptLoad chunk e.message)
    (Action.load source name Action.textMode env)
  finish chunk f []

/-- Runs a source in the restricted environment and takes its results. -/
def eval {R : Type} [OfResults R] (source chunk : String) : Use R :=
  run (Bytes.ofText source) (Bytes.ofText ("=" ++ chunk)) chunk

/-- Runs a source in the restricted environment. -/
def exec (source chunk : String) : Use Unit := eval source chunk

def execFile (path : String) : Use Unit := do
  match ← Attempt.read fun sb => sb.state.store.files.read path with
  | .error e => Attempt.fail (.file e.message)
  | .ok source => run source (Bytes.ofText ("@" ++ path)) path

def call {R : Type} [OfResults R] (function : String) (args : List Value) : Use R := do
  let v ← Attempt.read fun sb => sb.state.store.rawGet sb.env (.text function)
  match v with
  | .func f => finish function (.func f) args
  | _ => Attempt.fail (.notFunction function)

/-- A stand-in for a table that cannot be written. -/
def protect (t : TableId) : Use TableId :=
  acting (fun f => .host (Environment.causeOf f)) (Protection.protect t)

/-- The captured output, if it is captured. -/
def output (sb : Sandbox) : Option Bytes :=
  if sb.capturesOutput then some sb.state.store.output else none

/-- The sandbox with its captured output taken away. -/
def clearOutput (sb : Sandbox) : Sandbox :=
  { sb with state := { sb.state with store := { sb.state.store with output := .empty } } }

/-- The captured output as text, which is taken away. -/
def takeOutput (sb : Sandbox) : Option String × Sandbox :=
  match sb.output with
  | some b => (some b.textLossy, sb.clearOutput)
  | none => (none, sb)

end Sandbox

end Enclosure
