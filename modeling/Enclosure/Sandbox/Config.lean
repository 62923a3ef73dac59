import Enclosure.Native.Loader

/-!
# Configurations

What a sandbox is made of besides its policy: native modules with the permission to load them, script
modules, functions of the host, and arguments. A configuration grows by one setting after another.

The names of what comes on top of the policy are checked before anything is done: each must be usable
as a key, the name of a script module also as the name of a file, and none may be bound twice.
-/

namespace Enclosure

open Lua

/-- A function of the host under the name that scripts call it by. -/
structure HostFunction where
  name : String
  run : Callback

def HostFunction.shown (f : HostFunction) : String :=
  "HostFunction \x7b name: " ++ Quoted.quote f.name ++ ", .. \x7d"

structure Config where
  policy : Policy := .standard
  natives : List NativeModule := []
  /-- The native modules that may be loaded; nothing permits every registered one. -/
  allowed : Option (List String) := none
  /-- Native modules that are bound whole. -/
  trusted : List String := []
  /-- The directory of the script modules. -/
  modulePath : String := "modules"
  /-- Script modules that are bound whole. -/
  scriptModules : List String := []
  functions : List HostFunction := []
  args : List String := []
  capturesOutput : Bool := false

/-- One step towards a configuration. -/
inductive Setting
  | policy (p : Policy)
  | native (m : NativeModule)
  /-- A native module that is bound whole. -/
  | trusted (m : NativeModule)
  /-- Permits a native module; from then on only those named load. -/
  | allow (name : String)
  | modulePath (path : String)
  | scriptModule (name : String)
  | function (f : HostFunction)
  | args (values : List String)
  | captureOutput (b : Bool)

namespace Config

def apply (c : Config) : Setting → Config
  | .policy p => { c with policy := p }
  | .native m => { c with natives := c.natives ++ [m] }
  | .trusted m => { c with natives := c.natives ++ [m], trusted := c.trusted ++ [m.name] }
  | .allow name => { c with allowed := some (c.allowed.getD [] ++ [name]) }
  | .modulePath path => { c with modulePath := path }
  | .scriptModule name => { c with scriptModules := c.scriptModules ++ [name] }
  | .function f => { c with functions := c.functions ++ [f] }
  | .args values => { c with args := c.args ++ values }
  | .captureOutput b => { c with capturesOutput := b }

/-- The configuration that settings lead to, one after another. -/
def ofSettings (settings : List Setting) : Config := settings.foldl apply {}

/-- The loader of the native modules. What is bound whole may always be loaded. -/
def loader (c : Config) : NativeLoader :=
  let l : NativeLoader := c.natives.foldl .register {}
  match c.allowed with
  | some names => (names ++ c.trusted).foldl .allow l
  | none => l.allowRegistered

/-! ## Names on top of the policy -/

/-- The key of the arguments. -/
def argsName : String := "arg"

/-- A name on top of the policy. -/
structure Binding where
  name : String
  /-- The name is that of a file, too. -/
  ofFile : Bool

def bindings (c : Config) : List Binding :=
  c.trusted.map (⟨·, false⟩) ++ c.functions.map (⟨·.name, false⟩)
    ++ c.scriptModules.map (⟨·, true⟩) ++ (if c.args.isEmpty then [] else [⟨argsName, false⟩])

def isFileChar (c : Char) : Bool :=
  ('0' ≤ c && c ≤ '9') || ('a' ≤ c && c ≤ 'z') || ('A' ≤ c && c ≤ 'Z')
    || c == '_' || c == '-' || c == '.'

/-- Whether two points follow each other. -/
def hasTwoPoints : List Char → Bool
  | a :: b :: rest => (a == '.' && b == '.') || hasTwoPoints (b :: rest)
  | _ => false

/-- A file name that stays in its directory and is not hidden. -/
def plainFileName (name : String) : Bool :=
  let cs := name.toList
  cs.all isFileChar && cs.head? != some '.' && !hasTwoPoints cs

def Binding.valid (b : Binding) : Bool := validName b.name && (!b.ofFile || plainFileName b.name)

/-- The first defect of bindings that come after the keys `taken`. -/
def bindingDefect (taken : List String) : List Binding → Option Defect
  | [] => none
  | b :: rest =>
    if !b.valid then some (.invalidName b.name)
    else if taken.contains b.name then some (.duplicate none b.name)
    else bindingDefect (b.name :: taken) rest

/-- The first defect of the names on top of the policy. -/
def defect (c : Config) : Option Defect := bindingDefect c.policy.targets c.bindings

end Config

end Enclosure
